import MiniDebugger.Elf.Symbols

/-!
# The symbol that covers an address

`find_symbol_by_virtual_address` scans the merged symbols up to the first behind the address. Its
test adds the size to the value without a check, so a symbol whose end wraps never covers anything;
and of the entries with one value and name only the one that was kept can be found.
-/

namespace MiniDebugger

structure ResolvedSymbol where
  symbol : ElfSymbol
  offset : Word

namespace ElfSymbol

/-- The later of two symbols that cover an address takes the place of the first. -/
def precedes (symbol best : ElfSymbol) : Bool :=
  best.value < symbol.value ∨
    (symbol.value = best.value ∧ symbol.type = sttFunc ∧ best.type ≠ sttFunc)

end ElfSymbol

/-- The loop of `find_symbol_by_virtual_address`. -/
def nearestSymbol (address : Word) (best : Option ElfSymbol) :
    List ElfSymbol → Option ElfSymbol
  | [] => best
  | symbol :: rest =>
    if address < symbol.value then best
    else if symbol.type ≠ sttFunc ∧ symbol.type ≠ sttNotype then nearestSymbol address best rest
    else if symbol.size ≠ 0 ∧ symbol.value + symbol.size ≤ address then
      nearestSymbol address best rest
    else if best.all symbol.precedes then nearestSymbol address (some symbol) rest
    else nearestSymbol address best rest

def findSymbolByVirtualAddress (symbols : List ElfSymbol) (address : Word) :
    Option ResolvedSymbol :=
  (nearestSymbol address none symbols).map fun best => ⟨best, address - best.value⟩

structure ModuleResolvedSymbol where
  modulePath : String
  name : String
  offset : Word

namespace Tracee

/-- `find_symbol_by_runtime_address` -/
def findSymbolByRuntimeAddress (tracee : Tracee) (elf : ElfFile × List ElfSymbol) (address : Word) :
    Except Exception (Option ResolvedSymbol) := do
  let bias ← tracee.loadBias elf.1
  if address < bias then return none
  return findSymbolByVirtualAddress elf.2 (address - bias)

def findModuleSymbolByRuntimeAddress (tracee : Tracee) (files : SymbolFiles)
    (preferred : ElfFile × List ElfSymbol) (address : Word) :
    Except Exception (Option ModuleResolvedSymbol) := do
  match ← tracee.mappedModulePath address with
  | none => return none
  | some path =>
    let elf ← if files.sameFile path preferred.1.path then pure preferred else files.elf path
    match ← tracee.findSymbolByRuntimeAddress elf address with
    | none => return none
    | some symbol => return some ⟨path, symbol.symbol.name, symbol.offset⟩

end Tracee

namespace ElfSymbol

/-- A function or a symbol of no type that starts at or below the address and, if it has a size,
ends above it. -/
def Covers (symbol : ElfSymbol) (address : Word) : Prop :=
  (symbol.type = sttFunc ∨ symbol.type = sttNotype) ∧ symbol.value.toNat ≤ address.toNat ∧
    (symbol.size = 0 ∨ address.toNat - symbol.value.toNat < symbol.size.toNat)

/-- The end of the symbol is an address. -/
def Fits (symbol : ElfSymbol) : Prop :=
  symbol.size = 0 ∨ symbol.value.toNat + symbol.size.toNat < 2 ^ 64

/-- `left` is the better answer, or as good as `right`. -/
def Above (left right : ElfSymbol) : Prop :=
  right.value.toNat ≤ left.value.toNat ∧
    (right.value = left.value → right.type = sttFunc → left.type = sttFunc)

theorem Above.refl (symbol : ElfSymbol) : symbol.Above symbol := ⟨le_rfl, fun _ h => h⟩

theorem Above.trans {left middle right : ElfSymbol} (h : left.Above middle)
    (h' : middle.Above right) : left.Above right := by
  refine ⟨h'.1.trans h.1, fun hvalue htype => ?_⟩
  have hmiddle : right.value = middle.value :=
    BitVec.eq_of_toNat_eq (le_antisymm h'.1 (hvalue ▸ h.1))
  exact h.2 (hmiddle.symm.trans hvalue) (h'.2 hmiddle htype)

theorem precedes_iff {symbol best : ElfSymbol} :
    symbol.precedes best = true ↔ ¬best.Above symbol := by
  simp only [precedes, Above, decide_eq_true_eq, BitVec.lt_def]
  by_cases hlt : best.value.toNat < symbol.value.toNat
  · simp [hlt]
  · simp only [hlt, false_or, not_lt.mp hlt, true_and]
    tauto

theorem Above.of_precedes {symbol best : ElfSymbol} (h : symbol.precedes best = true) :
    symbol.Above best := by
  simp only [precedes, decide_eq_true_eq, BitVec.lt_def] at h
  obtain hlt | ⟨hvalue, htype, _⟩ := h
  · refine ⟨hlt.le, fun hvalue _ => ?_⟩
    rw [hvalue] at hlt
    exact absurd hlt (lt_irrefl _)
  · exact ⟨hvalue ▸ le_rfl, fun _ _ => htype⟩

theorem above_of_precedes_eq_false {symbol best : ElfSymbol} (h : symbol.precedes best = false) :
    best.Above symbol := by
  by_contra hnot
  rw [precedes_iff.mpr hnot] at h
  cases h

/-- The tests of the loop, in the order it makes them, are about symbols that cover the address and
whose end is an address. -/
theorem covers_and_fits_iff {symbol : ElfSymbol} {address : Word} :
    symbol.Covers address ∧ symbol.Fits ↔
      ¬address < symbol.value ∧ ¬(symbol.type ≠ sttFunc ∧ symbol.type ≠ sttNotype) ∧
        ¬(symbol.size ≠ 0 ∧ symbol.value + symbol.size ≤ address) := by
  have hend := BitVec.toNat_add symbol.value symbol.size
  have hbound := symbol.value.isLt
  have hsize := symbol.size.isLt
  simp only [Covers, Fits, BitVec.lt_def, BitVec.le_def, hend]
  by_cases hzero : symbol.size = 0
  · simp only [hzero, ne_eq, not_true_eq_false, false_and, not_false_eq_true, true_or, and_true]
    constructor
    · rintro ⟨htype, hvalue⟩
      exact ⟨by omega, by tauto⟩
    · rintro ⟨hvalue, htype⟩
      exact ⟨by tauto, by omega⟩
  · simp only [hzero, ne_eq, not_false_eq_true, true_and, false_or]
    constructor
    · rintro ⟨⟨htype, hvalue, hcovered⟩, hfits⟩
      exact ⟨by omega, by tauto, by omega⟩
    · rintro ⟨hvalue, htype, hcovered⟩
      exact ⟨⟨by tauto, by omega, by omega⟩, by omega⟩

end ElfSymbol

/-! ## The scan -/

section Scan

variable {address : Word} {best : Option ElfSymbol} {symbols : List ElfSymbol}

theorem nearestSymbol_mem {found : ElfSymbol}
    (h : nearestSymbol address best symbols = some found) :
    best = some found ∨ found ∈ symbols ∧ found.Covers address ∧ found.Fits := by
  induction symbols generalizing best with
  | nil => exact .inl h
  | cons symbol rest ih =>
    have hrest : best = some found ∨ found ∈ rest ∧ found.Covers address ∧ found.Fits →
        best = some found ∨ found ∈ symbol :: rest ∧ found.Covers address ∧ found.Fits :=
      Or.imp_right fun hfound => ⟨List.mem_cons_of_mem symbol hfound.1, hfound.2⟩
    unfold nearestSymbol at h
    split at h
    · exact .inl h
    · next hvalue =>
      split at h
      · exact hrest (ih h)
      · next htype =>
        split at h
        · exact hrest (ih h)
        · next hsize =>
          split at h
          · obtain heq | ⟨hmem, hcovers⟩ := ih h
            · obtain rfl := Option.some.inj heq
              exact .inr ⟨List.mem_cons_self,
                ElfSymbol.covers_and_fits_iff.mpr ⟨hvalue, htype, hsize⟩⟩
            · exact .inr ⟨List.mem_cons_of_mem symbol hmem, hcovers⟩
          · exact hrest (ih h)

/-- Nothing that was met or is still met is above what is found. -/
theorem nearestSymbol_above (hsorted : symbols.Pairwise fun s t => s.value.toNat ≤ t.value.toNat)
    {s : ElfSymbol} (hs : (∃ b ∈ best, b.Above s) ∨ s ∈ symbols ∧ s.Covers address ∧ s.Fits) :
    ∃ found, nearestSymbol address best symbols = some found ∧ found.Above s := by
  induction symbols generalizing best with
  | nil =>
    obtain ⟨b, hb, habove⟩ | ⟨hs, _⟩ := hs
    · exact ⟨b, hb, habove⟩
    · cases hs
  | cons symbol rest ih =>
    obtain ⟨hfirst, hrest⟩ := List.pairwise_cons.mp hsorted
    -- the head is passed over unless it passes all tests
    have hskip : ¬(symbol.Covers address ∧ symbol.Fits) →
        (∃ b ∈ best, b.Above s) ∨ s ∈ rest ∧ s.Covers address ∧ s.Fits := by
      intro hnot
      refine hs.imp_right fun ⟨hmem, hcovers⟩ => ⟨?_, hcovers⟩
      obtain rfl | hmem := List.mem_cons.mp hmem
      · exact absurd hcovers hnot
      · exact hmem
    unfold nearestSymbol
    split
    · next hbehind =>
      obtain ⟨b, hb, habove⟩ | ⟨hmem, hcovers, _⟩ := hs
      · exact ⟨b, hb, habove⟩
      · have hle : symbol.value.toNat ≤ s.value.toNat := by
          obtain rfl | hmem := List.mem_cons.mp hmem
          · exact le_rfl
          · exact hfirst s hmem
        have hlt := BitVec.lt_def.mp hbehind
        have hstart := hcovers.2.1
        omega
    · next hvalue =>
      split
      · next htype =>
        exact ih hrest (hskip fun h => (ElfSymbol.covers_and_fits_iff.mp h).2.1 htype)
      · next htype =>
        split
        · next hsize =>
          exact ih hrest (hskip fun h => (ElfSymbol.covers_and_fits_iff.mp h).2.2 hsize)
        · split
          · next htaken =>
            refine ih hrest ?_
            obtain ⟨b, hb, habove⟩ | ⟨hmem, hcovers⟩ := hs
            · obtain rfl := hb
              exact .inl ⟨symbol, rfl, (ElfSymbol.Above.of_precedes htaken).trans habove⟩
            · obtain rfl | hmem := List.mem_cons.mp hmem
              · exact .inl ⟨s, rfl, .refl s⟩
              · exact .inr ⟨hmem, hcovers⟩
          · next hstays =>
            refine ih hrest ?_
            obtain habove | ⟨hmem, hcovers⟩ := hs
            · exact .inl habove
            · obtain rfl | hmem := List.mem_cons.mp hmem
              · cases best with
                | none => exact absurd rfl hstays
                | some known =>
                  exact .inl ⟨known, rfl,
                    ElfSymbol.above_of_precedes_eq_false (Bool.not_eq_true _ ▸ hstays)⟩
              · exact .inr ⟨hmem, hcovers⟩

end Scan

/-! ## Every sort -/

/-- What is found covers the address as well as any entry of the file, and something is found if an
entry covers it, whatever the sort. -/
def ChoiceByAddress (entries : List ElfSymbol) (address : Word) : Prop :=
  ∀ symbols, MergedSymbols entries symbols →
    ((findSymbolByVirtualAddress symbols address).isSome = true ↔
      ∃ s ∈ entries, s.Covers address) ∧
    ∀ found, findSymbolByVirtualAddress symbols address = some found →
      found.symbol ∈ entries ∧ found.symbol.Covers address ∧
        (∀ s ∈ entries, s.Covers address → found.symbol.Above s) ∧
        found.offset = address - found.symbol.value

/-- No sort loses the symbol: of the entries with its value and name none has a smaller type, and
all of its type cover the address and have their end below 2^64. -/
def ElfSymbol.IsKept (symbol : ElfSymbol) (entries : List ElfSymbol) (address : Word) : Prop :=
  ∀ s ∈ entries, s.value = symbol.value → s.name = symbol.name →
    symbol.type ≤ s.type ∧ (s.type = symbol.type → s.Covers address ∧ s.Fits)

section ByAddress

variable {entries symbols : List ElfSymbol} {address : Word}

theorem MergedSymbols.mem (h : MergedSymbols entries symbols) {s : ElfSymbol} (hs : s ∈ symbols) :
    s ∈ entries :=
  (mergedSymbols_iff.mp h).mem hs

theorem MergedSymbols.value_le (h : MergedSymbols entries symbols) :
    symbols.Pairwise fun s t => s.value.toNat ≤ t.value.toNat := by
  refine (mergedSymbols_iff.mp h).group_le.imp fun {s t} hle => ?_
  obtain hlt | ⟨hvalue, _⟩ := Prod.Lex.toLex_le_toLex.mp hle
  · exact hlt.le
  · exact hvalue.le

theorem findSymbolByVirtualAddress_eq_some {found : ResolvedSymbol} :
    findSymbolByVirtualAddress symbols address = some found ↔
      nearestSymbol address none symbols = some found.symbol ∧
        found.offset = address - found.symbol.value := by
  unfold findSymbolByVirtualAddress
  rw [Option.map_eq_some_iff]
  constructor
  · rintro ⟨best, hbest, rfl⟩
    exact ⟨hbest, rfl⟩
  · rintro ⟨hbest, hoffset⟩
    exact ⟨found.symbol, hbest, by rw [← hoffset]⟩

/-- Where some sort finds what it should, a symbol as good is kept by every sort. -/
theorem ChoiceByAddress.exists_isKept (h : ChoiceByAddress entries address) {top : ElfSymbol}
    (htop : top ∈ entries) (hcovers : top.Covers address) :
    ∃ kept ∈ entries, kept.Above top ∧ kept.IsKept entries address := by
  -- a sort that keeps what does not pass the tests, where it can
  obtain ⟨symbols, hmerged, hbad⟩ := Representatives.exists_merged ElfSymbol.group ElfSymbol.type
    (fun s => ¬(s.Covers address ∧ s.Fits)) entries
  obtain ⟨hsome, hfound⟩ := h symbols (mergedSymbols_iff.mpr hmerged)
  obtain ⟨found, heq⟩ := Option.isSome_iff_exists.mp (hsome.mpr ⟨top, htop, hcovers⟩)
  obtain ⟨hmem, _, habove, _⟩ := hfound found heq
  obtain ⟨hkept, hpasses⟩ :=
    (nearestSymbol_mem (findSymbolByVirtualAddress_eq_some.mp heq).1).resolve_left (by simp)
  refine ⟨found.symbol, hmem, habove top htop hcovers, fun s hs hvalue hname => ?_⟩
  have hgroup := ElfSymbol.group_eq_iff.mpr ⟨hvalue, hname⟩
  refine ⟨hmerged.rank_le hkept hs hgroup, fun htype => ?_⟩
  by_contra hfails
  exact hbad found.symbol hkept s hs hgroup htype hfails hpasses

/-- A symbol that no sort loses, or one as good, is found. -/
theorem nearestSymbol_of_isKept (hmerged : MergedSymbols entries symbols) {kept : ElfSymbol}
    (hmem : kept ∈ entries) (hkept : kept.IsKept entries address) :
    ∃ found, nearestSymbol address none symbols = some found ∧ found.Above kept := by
  have hmerges := mergedSymbols_iff.mp hmerged
  obtain ⟨s, hs, hgroup⟩ := hmerges.exists_mem hmem
  obtain ⟨hvalue, hname⟩ := ElfSymbol.group_eq_iff.mp hgroup
  obtain ⟨hle, hsame⟩ := hkept s (hmerges.mem hs) hvalue hname
  have htype : s.type = kept.type := le_antisymm (hmerges.rank_le hs hmem hgroup.symm) hle
  obtain ⟨found, hfound, habove⟩ : ∃ found, nearestSymbol _ none _ = some found ∧ found.Above s :=
    nearestSymbol_above hmerged.value_le (.inr ⟨hs, hsame htype⟩)
  have hover : s.Above kept := ⟨hvalue ▸ le_rfl, fun _ h => htype.trans h⟩
  exact ⟨found, hfound, habove.trans hover⟩

end ByAddress

/-- The choice by address is right exactly when, of the symbols that cover the address, one as good
as any is kept by every sort. -/
theorem choiceByAddress_iff (tables : List SymbolTable) (address : Word) :
    ChoiceByAddress (symbolEntries tables) address ↔
      ∀ top ∈ symbolEntries tables, top.Covers address →
        ∃ kept ∈ symbolEntries tables,
          kept.Above top ∧ kept.IsKept (symbolEntries tables) address := by
  constructor
  · intro h top htop hcovers
    exact h.exists_isKept htop hcovers
  · intro h symbols hmerged
    have hpasses : ∀ found, nearestSymbol address none symbols = some found →
        found ∈ symbolEntries tables ∧ found.Covers address := by
      intro found hfound
      obtain ⟨hmem, hcovers, _⟩ := (nearestSymbol_mem hfound).resolve_left (by simp)
      exact ⟨hmerged.mem hmem, hcovers⟩
    constructor
    · constructor
      · intro hsome
        obtain ⟨found, hfound⟩ := Option.isSome_iff_exists.mp hsome
        exact ⟨found.symbol, hpasses _ (findSymbolByVirtualAddress_eq_some.mp hfound).1⟩
      · rintro ⟨s, hs, hcovers⟩
        obtain ⟨kept, hmem, _, hkept⟩ := h s hs hcovers
        obtain ⟨found, hfound, _⟩ := nearestSymbol_of_isKept hmerged hmem hkept
        unfold findSymbolByVirtualAddress
        rw [hfound, Option.map_some, Option.isSome_some]
    · intro found hfound
      obtain ⟨hnearest, hoffset⟩ := findSymbolByVirtualAddress_eq_some.mp hfound
      obtain ⟨hmem, hcovers⟩ := hpasses _ hnearest
      refine ⟨hmem, hcovers, fun s hs hs' => ?_, hoffset⟩
      obtain ⟨kept, hkeptMem, hover, hkept⟩ := h s hs hs'
      obtain ⟨other, hother, habove⟩ := nearestSymbol_of_isKept hmerged hkeptMem hkept
      cases hnearest.symm.trans hother
      exact habove.trans hover

/-- The object is kept, and the function of the same name and address is lost. -/
theorem not_choiceByAddress :
    ¬ChoiceByAddress (symbolEntries [⟨[⟨1, 0x11, 1, 0x10, 8⟩, ⟨1, 0x12, 1, 0x10, 8⟩], [0, 102, 0]⟩])
      0x14 := by
  intro h
  obtain ⟨hsome, _⟩ := h _ ⟨_, .refl _, by decide +kernel, rfl⟩
  have hcovers : (⟨"f", 0x10, 8, sttFunc, stbGlobal⟩ : ElfSymbol).Covers 0x14 :=
    ⟨.inl rfl, by decide, .inr (by decide)⟩
  have hfound := hsome.mpr ⟨⟨"f", 0x10, 8, sttFunc, stbGlobal⟩, by decide +kernel, hcovers⟩
  exact absurd hfound (by decide +kernel)

end MiniDebugger
