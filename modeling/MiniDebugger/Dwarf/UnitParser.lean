import MiniDebugger.Dwarf.Locations
import MiniDebugger.Dwarf.ValueTypes
import MiniDebugger.Loops

/-!
# Parsing a unit

`parse_unit_dies` reads the entries of one unit. The entries of a `.debug_info` unit follow each
other without a tree structure of their own: an entry whose abbreviation says that it has children
opens a list that a null entry closes, and a stack of the open entries is all the parser keeps.

The loops are given by their rounds. A round that is not the last reads a byte at least, within the
limit of its reader, so that each loop ends.
-/

namespace MiniDebugger

open Loop (Round)
open Std (ExtTreeMap)

def kDwAtStrOffsetsBase : Nat := 0x72
def kDwAtAddrBase : Nat := 0x73
def kDwAtLoclistsBase : Nat := 0x8c

def kDwFormString : Nat := 0x08
def kDwFormStrp : Nat := 0x0e
def kDwFormFlagPresent : Nat := 0x19
def kDwFormAddrx : Nat := 0x1b
def kDwFormLineStrp : Nat := 0x1f
def kDwFormStrx1 : Nat := 0x25

def kDwUtCompile : Nat := 0x01

structure DebugSections where
  info : List Byte := []
  abbrev_ : List Byte := []
  strings : List Byte := []
  lineStrings : List Byte := []
  locationLists : List Byte := []
  addresses : List Byte := []
  stringOffsets : List Byte := []

structure AttributeSpec where
  name : Nat
  form : Nat
  implicitConstant : Int := 0
  deriving DecidableEq, Repr

structure Abbreviation where
  tag : Nat
  hasChildren : Bool
  attributes : List AttributeSpec
  deriving DecidableEq, Repr

/-! ## Reads within a limit -/

/-- A read that starts within the limit ends within it and does not move the cursor back. -/
def ReadsWithin {α : Type} (limit : Nat) (x : Parse α) : Prop :=
  ∀ ⦃cursor : Nat⦄ ⦃a : α⦄ ⦃next : Nat⦄, cursor ≤ limit → x cursor = .ok (a, next) →
    cursor ≤ next ∧ next ≤ limit

/-- A read takes a byte at least and ends within the limit. -/
def ReadsOn {α : Type} (limit : Nat) (x : Parse α) : Prop :=
  ∀ ⦃cursor : Nat⦄ ⦃a : α⦄ ⦃next : Nat⦄, x cursor = .ok (a, next) → cursor < next ∧ next ≤ limit

section Limits

variable {α β : Type} {bytes : List Byte} {limit size : Nat} {what : String}

theorem ReadsOn.within {x : Parse α} (h : ReadsOn limit x) : ReadsWithin limit x := by
  intro cursor a next _ hx
  obtain ⟨hlt, hle⟩ := h hx
  exact ⟨hlt.le, hle⟩

theorem readsWithin_pure (a : α) : ReadsWithin limit (pure a : Parse α) := by
  intro cursor b next hcursor h
  cases h
  exact ⟨le_rfl, hcursor⟩

theorem readsWithin_throw (e : Exception) : ReadsWithin limit (throw e : Parse α) := by
  intro cursor a next _ h
  cases h

theorem readsWithin_lift (x : Except Exception α) : ReadsWithin limit (liftM x : Parse α) := by
  intro cursor a next hcursor h
  cases x with
  | error e => cases h
  | ok b =>
    cases h
    exact ⟨le_rfl, hcursor⟩

theorem readsWithin_bind {x : Parse α} {f : α → Parse β} (hx : ReadsWithin limit x)
    (hf : ∀ a, ReadsWithin limit (f a)) : ReadsWithin limit (x >>= f) := by
  intro cursor b next hcursor h
  obtain ⟨a, middle, hfirst, hrest⟩ := bind_ok h
  obtain ⟨hle, hmiddle⟩ := hx hcursor hfirst
  obtain ⟨hle', hnext⟩ := hf a hmiddle hrest
  exact ⟨hle.trans hle', hnext⟩

theorem readsWithin_ite {c : Prop} [Decidable c] {x y : Parse α} (hx : ReadsWithin limit x)
    (hy : ReadsWithin limit y) : ReadsWithin limit (if c then x else y) := by
  split
  · exact hx
  · exact hy

/-- A read that goes on after its first byte. -/
theorem readsOn_bind {x : Parse α} {f : α → Parse β} (hx : ReadsOn limit x)
    (hf : ∀ a, ReadsWithin limit (f a)) : ReadsOn limit (x >>= f) := by
  intro cursor b next h
  obtain ⟨a, middle, hfirst, hrest⟩ := bind_ok h
  obtain ⟨hlt, hmiddle⟩ := hx hfirst
  obtain ⟨hle, hnext⟩ := hf a hmiddle hrest
  exact ⟨hlt.trans_le hle, hnext⟩

theorem readsOn_readDwarfScalar (hsize : 0 < size) :
    ReadsOn limit (readDwarfScalar bytes limit size what) := by
  intro cursor value next h
  unfold readDwarfScalar at h
  split at h
  · cases h
  · next hfits =>
    cases hread : readAt bytes cursor size what with
    | error e => rw [hread] at h; cases h
    | ok v =>
      rw [hread] at h
      cases h
      omega

theorem readsWithin_readDwarfUlebRounds (count shift : Nat) (result : Word) :
    ReadsWithin limit (readDwarfUlebRounds bytes limit what count shift result) := by
  induction count generalizing shift result with
  | zero => exact readsWithin_throw _
  | succ count ih =>
    refine readsWithin_bind (readsOn_readDwarfScalar Nat.one_pos).within fun byte => ?_
    refine readsWithin_ite (readsWithin_throw _) ?_
    exact readsWithin_ite (readsWithin_pure _) (ih _ _)

theorem readsOn_readDwarfUleb : ReadsOn limit (readDwarfUleb bytes limit what) := by
  refine readsOn_bind (readsOn_readDwarfScalar Nat.one_pos) fun byte => ?_
  refine readsWithin_ite (readsWithin_throw _) ?_
  exact readsWithin_ite (readsWithin_pure _) (readsWithin_readDwarfUlebRounds _ _ _)

theorem readsWithin_readDwarfSlebRounds (count shift : Nat) (result : Word) :
    ReadsWithin limit (readDwarfSlebRounds bytes limit what count shift result) := by
  induction count generalizing shift result with
  | zero => exact readsWithin_throw _
  | succ count ih =>
    refine readsWithin_bind (readsOn_readDwarfScalar Nat.one_pos).within fun byte => ?_
    refine readsWithin_ite ?_ (ih _ _)
    exact readsWithin_ite (readsWithin_pure _) (readsWithin_pure _)

theorem readsWithin_readDwarfSleb : ReadsWithin limit (readDwarfSleb bytes limit what) :=
  readsWithin_readDwarfSlebRounds _ _ _

theorem readsOn_readCString : ReadsOn limit (readCString bytes limit what) :=
  fun _ _ _ => readCString_next

end Limits

/-! ## Abbreviations -/

/-- One attribute of an abbreviation; the list ends with a pair of zeros. -/
def readAttributeSpec (bytes : List Byte) : Parse (Option AttributeSpec) := do
  let name ← readDwarfUleb bytes bytes.length "abbreviation attribute"
  let form ← readDwarfUleb bytes bytes.length "abbreviation form"
  if name = 0 ∧ form = 0 then return none
  else if name = 0 ∨ form = 0 then
    throw (.runtimeError "malformed DWARF abbreviation attribute/form pair")
  else if form.toNat = kDwFormImplicitConst then
    let implicitConstant ←
      readDwarfSleb bytes bytes.length "DW_FORM_implicit_const value"
    return some ⟨name.toNat, form.toNat, implicitConstant⟩
  else return some ⟨name.toNat, form.toNat, 0⟩

/-- A round of the loop over the attributes of an abbreviation. -/
def attributeSpecRound (bytes : List Byte) (state : List AttributeSpec × Nat) :
    Round (List AttributeSpec × Nat) (Except Exception (List AttributeSpec × Nat)) :=
  match readAttributeSpec bytes state.2 with
  | .error e => .stop (.error e)
  | .ok (none, cursor) => .stop (.ok (state.1, cursor))
  | .ok (some spec, cursor) => .again (state.1 ++ [spec], cursor)

theorem readsOn_readAttributeSpec (bytes : List Byte) :
    ReadsOn bytes.length (readAttributeSpec bytes) := by
  refine readsOn_bind readsOn_readDwarfUleb fun name => ?_
  refine readsWithin_bind readsOn_readDwarfUleb.within fun form => ?_
  refine readsWithin_ite (readsWithin_pure _) (readsWithin_ite (readsWithin_throw _) (readsWithin_ite ?_ (readsWithin_pure _)))
  exact readsWithin_bind readsWithin_readDwarfSleb fun implicitConstant => readsWithin_pure _

theorem attributeSpecRound_decreases (bytes : List Byte) :
    Loop.Decreases (fun state => bytes.length - state.2) (attributeSpecRound bytes) := by
  intro state next h
  unfold attributeSpecRound at h
  split at h
  · cases h
  · cases h
  · next spec cursor hread =>
    cases h
    have hcursor := readsOn_readAttributeSpec bytes hread
    dsimp only
    omega

def readAttributeSpecs (bytes : List Byte) : Parse (List AttributeSpec) := fun cursor =>
  Loop.run _ _ (attributeSpecRound_decreases bytes) ([], cursor)

/-- One abbreviation with its code; the table ends with the code 0. -/
def readAbbreviation (bytes : List Byte) : Parse (Option (Nat × Abbreviation)) := do
  let code ← readDwarfUleb bytes bytes.length "abbreviation code"
  if code = 0 then return none
  else
    let tag ← readDwarfUleb bytes bytes.length "abbreviation tag"
    let children ← readDwarfScalar bytes bytes.length 1 "abbreviation children flag"
    if 1 < children then throw (.runtimeError "invalid DWARF abbreviation children flag")
    else
      let attributes ← readAttributeSpecs bytes
      return some (code.toNat, ⟨tag.toNat, children ≠ 0, attributes⟩)

abbrev AbbreviationTable := ExtTreeMap Nat Abbreviation

/-- A round of the loop over the abbreviations. -/
def abbreviationRound (bytes : List Byte) (state : AbbreviationTable × Nat) :
    Round (AbbreviationTable × Nat) (Except Exception AbbreviationTable) :=
  if bytes.length ≤ state.2 then .stop (.ok state.1)
  else
    match readAbbreviation bytes state.2 with
    | .error e => .stop (.error e)
    | .ok (none, _) => .stop (.ok state.1)
    | .ok (some (code, entry), cursor) =>
      if state.1.contains code then
        .stop (.error (.runtimeError "duplicate DWARF abbreviation code"))
      else .again (state.1.insert code entry, cursor)

theorem readsWithin_readAttributeSpecs (bytes : List Byte) :
    ReadsWithin bytes.length (readAttributeSpecs bytes) := by
  intro cursor specs next hcursor h
  have hstep : ∀ state state', cursor ≤ state.2 ∧ state.2 ≤ bytes.length →
      attributeSpecRound bytes state = .again state' →
      cursor ≤ state'.2 ∧ state'.2 ≤ bytes.length := by
    intro state state' hstate hround
    unfold attributeSpecRound at hround
    split at hround
    · cases hround
    · cases hround
    · next spec middle hread =>
      cases hround
      have hnext := readsOn_readAttributeSpec bytes hread
      dsimp only
      omega
  obtain ⟨last, hlast, hstop⟩ :=
    (Loop.run_ends (attributeSpecRound_decreases bytes) ([], cursor)).invariant hstep
      ⟨le_rfl, hcursor⟩
  have hround : attributeSpecRound bytes last = .stop (.ok (specs, next)) :=
    hstop.trans (congrArg Round.stop h)
  unfold attributeSpecRound at hround
  split at hround
  · cases hround
  · next middle hread =>
    cases hround
    have hnext := readsOn_readAttributeSpec bytes hread
    omega
  · cases hround

theorem readsOn_readAbbreviation (bytes : List Byte) :
    ReadsOn bytes.length (readAbbreviation bytes) := by
  refine readsOn_bind readsOn_readDwarfUleb fun code => ?_
  refine readsWithin_ite (readsWithin_pure _) ?_
  refine readsWithin_bind readsOn_readDwarfUleb.within fun tag => ?_
  refine readsWithin_bind (readsOn_readDwarfScalar Nat.one_pos).within fun children => ?_
  refine readsWithin_ite (readsWithin_throw _) ?_
  exact readsWithin_bind (readsWithin_readAttributeSpecs bytes) fun attributes => readsWithin_pure _

theorem abbreviationRound_decreases (bytes : List Byte) :
    Loop.Decreases (fun state => bytes.length - state.2) (abbreviationRound bytes) := by
  intro state next h
  unfold abbreviationRound at h
  split at h
  · cases h
  · split at h
    · cases h
    · cases h
    · next code entry cursor hread =>
      split at h
      · cases h
      · cases h
        have hcursor := readsOn_readAbbreviation bytes hread
        dsimp only
        omega

def parseAbbreviations (bytes : List Byte) (offset : Nat) : Except Exception AbbreviationTable :=
  if bytes.length < offset then
    throw (.runtimeError "DWARF abbreviation offset is out of range")
  else Loop.run _ _ (abbreviationRound_decreases bytes) (∅, offset)

/-! ## Attributes -/

/-- The string at an offset of a section, which is checked first. -/
def stringAt (strings : List Byte) (offset : Nat) (range what : String) :
    Except Exception String :=
  if strings.length ≤ offset then throw (.runtimeError range)
  else (readCString strings strings.length what offset).map fun text => String.ofList text.1

/-- The `DW_FORM_exprloc` case of `read_attribute` -/
def readExpression (info : List Byte) (unitEnd : Nat) : Parse (List Byte) := do
  let length ← readDwarfUleb info unitEnd "DW_FORM_exprloc length"
  fun cursor =>
    if unitEnd - cursor < length.toNat then
      throw (.runtimeError "DW_FORM_exprloc extends past unit")
    else return ((info.drop cursor).take length.toNat, cursor + length.toNat)

def readAttribute (sections : DebugSections) (unitEnd unitStart addressSize : Nat)
    (spec : AttributeSpec) : Parse AttributeValue :=
  let value : AttributeValue := ⟨spec.name, spec.form, 0, "", []⟩
  let scalar (size : Nat) (what : String) : Parse AttributeValue := do
    let number ← readDwarfScalar sections.info unitEnd size what
    return { value with number := BitVec.ofNat 64 number }
  let uleb (what : String) : Parse AttributeValue := do
    let number ← readDwarfUleb sections.info unitEnd what
    return { value with number }
  if spec.form = kDwFormAddr then
    if addressSize ≠ 8 then throw (.runtimeError "only 8-byte DWARF addresses are supported")
    else scalar 8 "DW_FORM_addr"
  else if spec.form = kDwFormData1 then scalar 1 "DW_FORM_data1"
  else if spec.form = kDwFormData2 then scalar 2 "DW_FORM_data2"
  else if spec.form = kDwFormData4 then scalar 4 "DW_FORM_data4"
  else if spec.form = kDwFormData8 then scalar 8 "DW_FORM_data8"
  else if spec.form = kDwFormSdata then do
    let number ← readDwarfSleb sections.info unitEnd "DW_FORM_sdata"
    return { value with number := BitVec.ofInt 64 number }
  else if spec.form = kDwFormUdata then uleb "DW_FORM_udata"
  else if spec.form = kDwFormString then do
    let text ← readCString sections.info unitEnd "DW_FORM_string"
    return { value with text := String.ofList text }
  else if spec.form = kDwFormStrp then do
    let offset ← readDwarfScalar sections.info unitEnd 4 "DW_FORM_strp"
    let text ← stringAt sections.strings offset "DW_FORM_strp offset is out of range"
      "DW_FORM_strp string"
    return { value with text }
  else if spec.form = kDwFormLineStrp then do
    let offset ← readDwarfScalar sections.info unitEnd 4 "DW_FORM_line_strp"
    let text ← stringAt sections.lineStrings offset "DW_FORM_line_strp offset is out of range"
      "DW_FORM_line_strp string"
    return { value with text }
  else if spec.form = kDwFormRef4 then do
    let offset ← readDwarfScalar sections.info unitEnd 4 "DW_FORM_ref4"
    if 2 ^ 64 - 1 - unitStart < offset then
      throw (.runtimeError "DW_FORM_ref4 overflows debug-info offset")
    else return { value with number := BitVec.ofNat 64 (unitStart + offset) }
  else if spec.form = kDwFormSecOffset then scalar 4 "DW_FORM_sec_offset"
  else if spec.form = kDwFormExprloc then do
    let expression ← readExpression sections.info unitEnd
    return { value with expression }
  else if spec.form = kDwFormFlagPresent then return { value with number := 1 }
  else if spec.form = kDwFormAddrx then uleb "DW_FORM_addrx"
  else if spec.form = kDwFormLoclistx then uleb "DW_FORM_loclistx"
  else if spec.form = kDwFormStrx1 then scalar 1 "DW_FORM_strx1"
  else if spec.form = kDwFormImplicitConst then
    return { value with number := BitVec.ofInt 64 spec.implicitConstant }
  else
    throw (.runtimeError
      ("unsupported DWARF form in local-value inspection: " ++ toString spec.form))

theorem readsWithin_readExpression (info : List Byte) (unitEnd : Nat) :
    ReadsWithin unitEnd (readExpression info unitEnd) := by
  refine readsWithin_bind readsOn_readDwarfUleb.within fun length => ?_
  intro cursor expression next hcursor h
  dsimp only at h
  split at h
  · cases h
  · cases h
    omega

theorem readsWithin_readAttribute (sections : DebugSections) (unitEnd unitStart addressSize : Nat)
    (spec : AttributeSpec) :
    ReadsWithin unitEnd (readAttribute sections unitEnd unitStart addressSize spec) := by
  have hscalar : ∀ (size : Nat) (what : String) (f : Nat → AttributeValue), 0 < size →
      ReadsWithin unitEnd (do
        let number ← readDwarfScalar sections.info unitEnd size what
        return f number : Parse AttributeValue) :=
    fun size what f hsize =>
      readsWithin_bind (readsOn_readDwarfScalar hsize).within fun _ => readsWithin_pure _
  have huleb : ∀ (what : String) (f : Word → AttributeValue), ReadsWithin unitEnd (do
      let number ← readDwarfUleb sections.info unitEnd what
      return f number : Parse AttributeValue) :=
    fun what f => readsWithin_bind readsOn_readDwarfUleb.within fun _ => readsWithin_pure _
  have htext : ∀ (what : String) (x : Nat → Except Exception String)
      (f : String → AttributeValue), ReadsWithin unitEnd (do
        let offset ← readDwarfScalar sections.info unitEnd 4 what
        let text ← liftM (x offset)
        return f text : Parse AttributeValue) :=
    fun what x f => readsWithin_bind (readsOn_readDwarfScalar (by decide)).within fun offset =>
      readsWithin_bind (readsWithin_lift _) fun _ => readsWithin_pure _
  unfold readAttribute
  dsimp only
  refine readsWithin_ite (readsWithin_ite (readsWithin_throw _) (hscalar _ _ _ (by decide))) ?_
  refine readsWithin_ite (hscalar _ _ _ (by decide)) ?_
  refine readsWithin_ite (hscalar _ _ _ (by decide)) ?_
  refine readsWithin_ite (hscalar _ _ _ (by decide)) ?_
  refine readsWithin_ite (hscalar _ _ _ (by decide)) ?_
  refine readsWithin_ite (readsWithin_bind readsWithin_readDwarfSleb fun _ => readsWithin_pure _) ?_
  refine readsWithin_ite (huleb _ _) ?_
  refine readsWithin_ite (readsWithin_bind readsOn_readCString.within fun _ => readsWithin_pure _) ?_
  refine readsWithin_ite (htext _ _ _) ?_
  refine readsWithin_ite (htext _ _ _) ?_
  refine readsWithin_ite (readsWithin_bind (readsOn_readDwarfScalar (by decide)).within fun _ =>
    readsWithin_ite (readsWithin_throw _) (readsWithin_pure _)) ?_
  refine readsWithin_ite (hscalar _ _ _ (by decide)) ?_
  refine readsWithin_ite (readsWithin_bind (readsWithin_readExpression _ _) fun _ => readsWithin_pure _) ?_
  refine readsWithin_ite (readsWithin_pure _) ?_
  refine readsWithin_ite (huleb _ _) ?_
  refine readsWithin_ite (huleb _ _) ?_
  refine readsWithin_ite (hscalar _ _ _ (by decide)) ?_
  exact readsWithin_ite (readsWithin_pure _) (readsWithin_throw _)

/-! ## Indexes of version 5 -/

def indexedString (sections : DebugSections) (base index : Word) : Except Exception String := do
  let offsets := sections.stringOffsets
  if offsets = [] then throw (.runtimeError "DW_FORM_strx1 requires .debug_str_offsets")
  if base.toNat < 8 ∨ offsets.length < base.toNat then
    throw (.runtimeError "DW_AT_str_offsets_base is out of range")
  let contributionStart := base.toNat - 8
  let length ← readAt offsets contributionStart 4 ".debug_str_offsets length"
  if length = 0xffffffff ∨ length < 4 ∨ offsets.length - contributionStart - 4 < length then
    throw (.runtimeError "unsupported .debug_str_offsets contribution")
  let contributionEnd := contributionStart + 4 + length
  if (← readAt offsets (contributionStart + 4) 2 ".debug_str_offsets version") ≠ 5 ∨
      (← readAt offsets (contributionStart + 6) 2 ".debug_str_offsets padding") ≠ 0 then
    throw (.runtimeError "unsupported .debug_str_offsets header")
  if (2 ^ 64 - 1 - base.toNat) / 4 < index.toNat then
    throw (.runtimeError "DW_FORM_strx1 index overflows offset table")
  let entry := base.toNat + index.toNat * 4
  if contributionEnd < entry ∨ contributionEnd - entry < 4 then
    throw (.runtimeError "DW_FORM_strx1 index is out of range")
  let stringOffset ← readAt offsets entry 4 "DW_FORM_strx1 offset"
  stringAt sections.strings stringOffset "DW_FORM_strx1 string offset is out of range"
    "DW_FORM_strx1 string"

def indexedAddress (sections : DebugSections) (base index : Word) : Except Exception Word := do
  let addresses := sections.addresses
  if addresses = [] then throw (.runtimeError "DW_FORM_addrx requires .debug_addr")
  if base.toNat < 8 ∨ addresses.length < base.toNat then
    throw (.runtimeError "DW_AT_addr_base is out of range")
  let contributionStart := base.toNat - 8
  let length ← readAt addresses contributionStart 4 ".debug_addr length"
  if length = 0xffffffff ∨ length < 4 ∨ addresses.length - contributionStart - 4 < length then
    throw (.runtimeError "unsupported .debug_addr contribution")
  let contributionEnd := contributionStart + 4 + length
  if (← readAt addresses (contributionStart + 4) 2 ".debug_addr version") ≠ 5 ∨
      (← readAt addresses (contributionStart + 6) 1 ".debug_addr address size") ≠ 8 ∨
      (← readAt addresses (contributionStart + 7) 1 ".debug_addr segment size") ≠ 0 then
    throw (.runtimeError "unsupported .debug_addr header")
  if (2 ^ 64 - 1 - base.toNat) / 8 < index.toNat then
    throw (.runtimeError "DW_FORM_addrx index overflows address table")
  let entry := base.toNat + index.toNat * 8
  if contributionEnd < entry ∨ contributionEnd - entry < 8 then
    throw (.runtimeError "DW_FORM_addrx index is out of range")
  return BitVec.ofNat 64 (← readAt addresses entry 8 "DW_FORM_addrx address")

def indexedLoclistOffset (sections : DebugSections) (base index : Word) :
    Except Exception Word := do
  if base.toNat < 12 then throw (.runtimeError "DW_AT_loclists_base is out of range")
  let contribution ← loclistsContributionAt sections.locationLists (base.toNat - 12)
  let offsetCount ←
    readAt sections.locationLists (base.toNat - 12 + 8) 4 ".debug_loclists offset count"
  if contribution.offsetsBase ≠ base.toNat then
    throw (.runtimeError "DW_AT_loclists_base does not point at the offset table")
  if offsetCount ≤ index.toNat then
    throw (.runtimeError "DW_FORM_loclistx index is out of range")
  let relative ← readAt sections.locationLists (contribution.offsetsBase + index.toNat * 4) 4
    "DW_FORM_loclistx offset"
  let absolute ← addUnsigned base (BitVec.ofNat 64 relative) "DW_FORM_loclistx offset"
  if contribution.finish ≤ absolute.toNat then
    throw (.runtimeError "DW_FORM_loclistx resolves outside its contribution")
  return absolute

/-- The number of a base attribute of the root entry. -/
def baseNumber (root : Die) (name : Nat) (missing : String) : Except Exception Word :=
  match root.attribute name with
  | none => throw (.runtimeError missing)
  | some base => if base.form ≠ kDwFormSecOffset then throw (.runtimeError missing)
    else return base.number

/-- What `resolve_dwarf5_indexes` does with an attribute. -/
def resolveIndex (sections : DebugSections) (root : Die) (value : AttributeValue) :
    Except Exception AttributeValue :=
  if value.form = kDwFormStrx1 then do
    let base ← baseNumber root kDwAtStrOffsetsBase
      "DW_FORM_strx1 requires DW_AT_str_offsets_base"
    let text ← indexedString sections base value.number
    return { value with text }
  else if value.form = kDwFormAddrx then do
    let base ← baseNumber root kDwAtAddrBase "DW_FORM_addrx requires DW_AT_addr_base"
    let number ← indexedAddress sections base value.number
    return { value with number, form := kDwFormAddr }
  else if value.form = kDwFormLoclistx then do
    let base ← baseNumber root kDwAtLoclistsBase "DW_FORM_loclistx requires DW_AT_loclists_base"
    let number ← indexedLoclistOffset sections base value.number
    return { value with number }
  else return value

def resolveDie (sections : DebugSections) (root die : Die) : Except Exception Die := do
  let attributes ← die.attributes.mapM (resolveIndex sections root)
  return { die with attributes }

def resolveDwarf5Indexes (sections : DebugSections) (dies : List Die) :
    Except Exception (List Die) :=
  match dies with
  | [] => throw (.runtimeError "DWARF5 unit has no root DIE")
  | root :: _ =>
    if root.parent.isSome then throw (.runtimeError "DWARF5 unit has no root DIE")
    else dies.mapM (resolveDie sections root)

/-! ## Entries -/

structure UnitHeader where
  unitEnd : Nat
  version : Nat
  abbrevOffset : Nat
  addressSize : Nat

/-- The header of a unit, up to its first entry. -/
def readUnitHeader (info : List Byte) : Parse UnitHeader := do
  let unitLength ← readDwarfScalar info info.length 4 "DWARF unit length"
  if unitLength = 0xffffffff then throw (.runtimeError "DWARF64 debug info is unsupported")
  let cursor ← get
  if info.length - cursor < unitLength then
    throw (.runtimeError "DWARF compilation unit extends past .debug_info")
  let unitEnd := cursor + unitLength
  let version ← readDwarfScalar info unitEnd 2 "DWARF unit version"
  if version = 4 then
    let abbrevOffset ← readDwarfScalar info unitEnd 4 "DWARF abbreviation offset"
    let addressSize ← readDwarfScalar info unitEnd 1 "DWARF address size"
    return ⟨unitEnd, version, abbrevOffset, addressSize⟩
  else if version = 5 then
    let unitType ← readDwarfScalar info unitEnd 1 "DWARF5 unit type"
    if unitType ≠ kDwUtCompile then
      throw (.runtimeError "only DWARF5 compile units are supported for local values")
    let addressSize ← readDwarfScalar info unitEnd 1 "DWARF5 address size"
    let abbrevOffset ← readDwarfScalar info unitEnd 4 "DWARF5 abbreviation offset"
    return ⟨unitEnd, version, abbrevOffset, addressSize⟩
  else throw (.runtimeError "only DWARF4/5 local-value units are supported")

/-- The variables of the loop over the entries; the last of the open entries is in front. -/
structure DieParser where
  cursor : Nat
  dies : List Die := []
  parents : List Nat := []

/-- What the loop reads of an entry: nothing but the null that closes a list, or its abbreviation
and its attributes. -/
def readDie (sections : DebugSections) (abbreviations : AbbreviationTable) (header : UnitHeader)
    (unitStart : Nat) : Parse (Option (Abbreviation × List AttributeValue)) := do
  let code ← readDwarfUleb sections.info header.unitEnd "DIE abbreviation code"
  if code = 0 then return none
  else
    match abbreviations[code.toNat]? with
    | none => throw (.runtimeError "DIE references an unknown abbreviation code")
    | some abbreviation =>
      let attributes ← abbreviation.attributes.mapM
        (readAttribute sections header.unitEnd unitStart header.addressSize)
      return some (abbreviation, attributes)

/-- A round of the loop over the entries. -/
def dieRound (sections : DebugSections) (abbreviations : AbbreviationTable) (header : UnitHeader)
    (unitStart : Nat) (state : DieParser) : Round DieParser (Except Exception DieParser) :=
  if header.unitEnd ≤ state.cursor then .stop (.ok state)
  else
    match readDie sections abbreviations header unitStart state.cursor with
    | .error e => .stop (.error e)
    | .ok (none, cursor) =>
      match state.parents with
      | [] => .stop (.ok { state with cursor })
      | _ :: parents => .again { state with cursor, parents }
    | .ok (some (abbreviation, attributes), cursor) =>
      let die : Die :=
        ⟨BitVec.ofNat 64 state.cursor, abbreviation.tag, state.parents.head?, attributes⟩
      .again
        { cursor, dies := state.dies ++ [die]
          parents := if abbreviation.hasChildren then state.dies.length :: state.parents
            else state.parents }

theorem readsWithin_mapM {α β : Type} {limit : Nat} {f : α → Parse β} (hf : ∀ a, ReadsWithin limit (f a))
    (l : List α) : ReadsWithin limit (l.mapM f) := by
  induction l with
  | nil => exact readsWithin_pure _
  | cons a l ih =>
    rw [List.mapM_cons]
    exact readsWithin_bind (hf a) fun b => readsWithin_bind ih fun bs => readsWithin_pure _

section Entries

variable {sections : DebugSections} {abbreviations : AbbreviationTable} {header : UnitHeader}
  {unitStart : Nat}

theorem readsOn_readDie :
    ReadsOn header.unitEnd (readDie sections abbreviations header unitStart) := by
  refine readsOn_bind readsOn_readDwarfUleb fun code => readsWithin_ite (readsWithin_pure _) ?_
  split
  · exact readsWithin_throw _
  · exact readsWithin_bind (readsWithin_mapM (readsWithin_readAttribute _ _ _ _) _) fun _ => readsWithin_pure _

theorem dieRound_decreases : Loop.Decreases (fun state => header.unitEnd - state.cursor)
    (dieRound sections abbreviations header unitStart) := by
  intro state next h
  unfold dieRound at h
  split at h
  · cases h
  · split at h
    · cases h
    · next cursor hread =>
      have hcursor := readsOn_readDie hread
      split at h
      · cases h
      · cases h
        dsimp only
        omega
    · next abbreviation attributes cursor hread =>
      have hcursor := readsOn_readDie hread
      cases h
      dsimp only
      omega

end Entries

structure ParsedUnit where
  dies : List Die
  nextUnit : Nat
  version : Nat

def parseUnitDies (sections : DebugSections) (unitStart : Nat) : Except Exception ParsedUnit := do
  let (header, cursor) ← readUnitHeader sections.info unitStart
  if header.addressSize ≠ 8 then
    throw (.runtimeError "only 8-byte DWARF local-value addresses are supported")
  let abbreviations ← parseAbbreviations sections.abbrev_ header.abbrevOffset
  let last ← Loop.run _ (dieRound sections abbreviations header unitStart) dieRound_decreases
    { cursor }
  if last.cursor ≠ header.unitEnd then
    throw (.runtimeError "unexpected trailing data in DWARF compilation unit")
  let dies ← if header.version = 5 then resolveDwarf5Indexes sections last.dies else pure last.dies
  return ⟨dies, header.unitEnd, header.version⟩

end MiniDebugger
