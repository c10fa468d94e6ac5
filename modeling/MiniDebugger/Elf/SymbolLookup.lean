import MiniDebugger.Elf.Symbols

/-!
# Looking up symbols

`find_symbol` by name and `find_symbol_by_virtual_address`. Each is a scan of the merged symbols,
and each is right exactly when no sort can make the merging lose the symbols that matter.
-/

namespace MiniDebugger

open Representatives (Merged)

/-! ## By name -/

namespace ElfSymbol

def isFunction (symbol : ElfSymbol) : Bool := symbol.type = sttFunc

def isGlobal (symbol : ElfSymbol) : Bool := symbol.binding = stbGlobal

/-- What `find_symbol` looks at: is it a function, is it global? -/
def kind (symbol : ElfSymbol) : Bool × Bool := (symbol.isFunction, symbol.isGlobal)

/-- The preference of `find_symbol`: `symbol` takes the place of `known`. -/
def displaces (symbol known : ElfSymbol) : Bool :=
  (symbol.type = sttFunc ∧ known.type ≠ sttFunc) ∨
    (symbol.binding = stbGlobal ∧ known.binding ≠ stbGlobal)

/-- Nothing that `right` is, `left` is not. -/
def AtLeast (left right : ElfSymbol) : Prop :=
  (right.isFunction = true → left.isFunction = true) ∧
    (right.isGlobal = true → left.isGlobal = true)

theorem displaces_iff {symbol known : ElfSymbol} :
    symbol.displaces known = true ↔ ¬known.AtLeast symbol := by
  simp only [displaces, AtLeast, isFunction, isGlobal, decide_eq_true_eq]
  tauto

theorem kind_eq_iff {left right : ElfSymbol} :
    left.kind = right.kind ↔ left.AtLeast right ∧ right.AtLeast left := by
  unfold kind AtLeast
  cases left.isFunction <;> cases right.isFunction <;> cases left.isGlobal <;>
    cases right.isGlobal <;> simp

end ElfSymbol

/-- One pass of the loop of `find_symbol`. -/
def preferSymbol (name : String) (best : Option ElfSymbol) (symbol : ElfSymbol) :
    Option ElfSymbol :=
  if symbol.name ≠ name then best
  else match best with
    | none => some symbol
    | some known => if symbol.displaces known then some symbol else some known

theorem findSymbol_eq (symbols : List ElfSymbol) (name : String) :
    findSymbol symbols name = symbols.foldl (preferSymbol name) none := by
  unfold findSymbol
  congr 1
  funext best symbol
  unfold preferSymbol ElfSymbol.displaces
  cases best with
  | none => rfl
  | some known => simp only [decide_eq_true_eq]

theorem preferSymbol_cases (name : String) (best : Option ElfSymbol) (symbol : ElfSymbol) :
    preferSymbol name best symbol = best ∨
      symbol.name = name ∧ preferSymbol name best symbol = some symbol := by
  unfold preferSymbol
  split
  · exact .inl rfl
  · next hname =>
    cases best with
    | none => exact .inr ⟨not_not.mp hname, rfl⟩
    | some known =>
      dsimp only
      split
      · exact .inr ⟨not_not.mp hname, rfl⟩
      · exact .inl rfl

/-- A scan ends with a symbol like `top`, once it has met one, if none of the name is more. -/
theorem foldl_preferSymbol {name : String} {top : ElfSymbol} {symbols : List ElfSymbol}
    {best : Option ElfSymbol}
    (htop : ∀ s ∈ symbols, s.name = name → top.AtLeast s)
    (hbest : ∀ b ∈ best, b.name = name ∧ top.AtLeast b)
    (hmeets : (∃ b ∈ best, b.kind = top.kind) ∨ ∃ s ∈ symbols, s.name = name ∧ s.kind = top.kind) :
    ∃ s, symbols.foldl (preferSymbol name) best = some s ∧ s.name = name ∧ s.kind = top.kind := by
  induction symbols generalizing best with
  | nil =>
    obtain ⟨b, hb, hkind⟩ | ⟨s, hs, _⟩ := hmeets
    · exact ⟨b, hb, (hbest b hb).1, hkind⟩
    · cases hs
  | cons symbol rest ih =>
    rw [List.foldl_cons]
    have hrest : ∀ s ∈ rest, s.name = name → top.AtLeast s := fun s hs =>
      htop s (List.mem_cons_of_mem symbol hs)
    by_cases hname : symbol.name = name
    · have hsymbol := htop symbol List.mem_cons_self hname
      have hlike : ∀ known : ElfSymbol, top.AtLeast known → symbol.displaces known = false →
          symbol.kind = top.kind → known.kind = top.kind := by
        intro known hknown hstays hkind
        have hat : known.AtLeast symbol := by
          by_contra hnot
          rw [ElfSymbol.displaces_iff.mpr hnot] at hstays
          cases hstays
        obtain ⟨hmore, hless⟩ := ElfSymbol.kind_eq_iff.mp hkind
        refine ElfSymbol.kind_eq_iff.mpr ⟨⟨?_, ?_⟩, hknown⟩
        · exact fun h => hat.1 (hmore.1 h)
        · exact fun h => hat.2 (hmore.2 h)
      cases best with
      | none =>
        have hstep : preferSymbol name none symbol = some symbol := by simp [preferSymbol, hname]
        rw [hstep]
        refine ih hrest (fun b hb => ?_) ?_
        · obtain rfl := Option.some.inj hb
          exact ⟨hname, hsymbol⟩
        · obtain ⟨b, hb, _⟩ | ⟨s, hs, hsname, hkind⟩ := hmeets
          · cases hb
          · obtain rfl | hs := List.mem_cons.mp hs
            · exact .inl ⟨s, rfl, hkind⟩
            · exact .inr ⟨s, hs, hsname, hkind⟩
      | some known =>
        obtain ⟨hknownName, hknown⟩ := hbest known rfl
        cases hdisplaces : symbol.displaces known with
        | true =>
          have hstep : preferSymbol name (some known) symbol = some symbol := by
            simp [preferSymbol, hname, hdisplaces]
          rw [hstep]
          refine ih hrest (fun b hb => ?_) ?_
          · obtain rfl := Option.some.inj hb
            exact ⟨hname, hsymbol⟩
          · obtain ⟨b, hb, hkind⟩ | ⟨s, hs, hsname, hkind⟩ := hmeets
            · -- nothing displaces a symbol like `top`
              obtain rfl := Option.some.inj hb
              obtain ⟨hmore, _⟩ := ElfSymbol.kind_eq_iff.mp hkind
              exact absurd ⟨fun h => hmore.1 (hsymbol.1 h), fun h => hmore.2 (hsymbol.2 h)⟩
                (ElfSymbol.displaces_iff.mp hdisplaces)
            · obtain rfl | hs := List.mem_cons.mp hs
              · exact .inl ⟨s, rfl, hkind⟩
              · exact .inr ⟨s, hs, hsname, hkind⟩
        | false =>
          have hstep : preferSymbol name (some known) symbol = some known := by
            simp [preferSymbol, hname, hdisplaces]
          rw [hstep]
          refine ih hrest hbest ?_
          obtain hkind | ⟨s, hs, hsname, hkind⟩ := hmeets
          · exact .inl hkind
          · obtain rfl | hs := List.mem_cons.mp hs
            · exact .inl ⟨known, rfl, hlike known hknown hdisplaces hkind⟩
            · exact .inr ⟨s, hs, hsname, hkind⟩
    · have hstep : preferSymbol name best symbol = best := by simp [preferSymbol, hname]
      rw [hstep]
      refine ih hrest hbest (hmeets.imp_right fun ⟨s, hs, hsname, hkind⟩ => ?_)
      obtain rfl | hs := List.mem_cons.mp hs
      · exact absurd hsname hname
      · exact ⟨s, hs, hsname, hkind⟩

theorem foldl_preferSymbol_mem {name : String} {symbols : List ElfSymbol}
    {best : Option ElfSymbol} {s : ElfSymbol}
    (h : symbols.foldl (preferSymbol name) best = some s) :
    best = some s ∨ s ∈ symbols ∧ s.name = name := by
  induction symbols generalizing best with
  | nil => exact .inl h
  | cons symbol rest ih =>
    obtain hbest | ⟨hs, hname⟩ := ih h
    · obtain hstays | ⟨hname, htaken⟩ := preferSymbol_cases name best symbol
      · exact .inl (hstays.symm.trans hbest)
      · obtain rfl := Option.some.inj (htaken.symm.trans hbest)
        exact .inr ⟨List.mem_cons_self, hname⟩
    · exact .inr ⟨List.mem_cons_of_mem symbol hs, hname⟩

/-- What is found is a symbol of the name. -/
theorem findSymbol_mem {name : String} {symbols : List ElfSymbol} {s : ElfSymbol}
    (h : findSymbol symbols name = some s) : s ∈ symbols ∧ s.name = name := by
  rw [findSymbol_eq] at h
  exact (foldl_preferSymbol_mem h).resolve_left (by simp)

theorem preferSymbol_isSome {name : String} {best : Option ElfSymbol} {symbol : ElfSymbol}
    (h : best.isSome = true ∨ symbol.name = name) :
    (preferSymbol name best symbol).isSome = true := by
  cases best with
  | none =>
    have hname := h.resolve_left (by decide)
    simp [preferSymbol, hname]
  | some known =>
    obtain hstays | ⟨_, htaken⟩ := preferSymbol_cases name (some known) symbol
    · rw [hstays, Option.isSome_some]
    · rw [htaken, Option.isSome_some]

theorem foldl_preferSymbol_isSome {name : String} {symbols : List ElfSymbol}
    {best : Option ElfSymbol} (h : best.isSome = true ∨ ∃ s ∈ symbols, s.name = name) :
    (symbols.foldl (preferSymbol name) best).isSome = true := by
  induction symbols generalizing best with
  | nil => simpa using h
  | cons symbol rest ih =>
    apply ih
    obtain hbest | ⟨s, hs, hname⟩ := h
    · exact .inl (preferSymbol_isSome (.inl hbest))
    · obtain rfl | hs := List.mem_cons.mp hs
      · exact .inl (preferSymbol_isSome (.inr hname))
      · exact .inr ⟨s, hs, hname⟩

/-- A symbol of the name is found if there is one. -/
theorem findSymbol_isSome {name : String} {symbols : List ElfSymbol} {s : ElfSymbol}
    (hs : s ∈ symbols) (hname : s.name = name) : ∃ best, findSymbol symbols name = some best := by
  rw [findSymbol_eq]
  exact Option.isSome_iff_exists.mp (foldl_preferSymbol_isSome (.inr ⟨s, hs, hname⟩))

/-- The same symbols, those of the name at other addresses. -/
def Readdressed (name : String) (entries entries' : List ElfSymbol) : Prop :=
  List.Forall₂ (fun e e' => e' = e ∨ e.name = name ∧ ∃ value, e' = { e with value })
    entries entries'

/-- Whatever the addresses of the symbols of the name and whatever the sort, the symbol found is of
one kind, and none of the name would displace it. -/
def ChoiceByName (entries : List ElfSymbol) (name : String) : Prop :=
  ∃ kind : Option (Bool × Bool), ∀ entries' symbols, Readdressed name entries entries' →
    MergedSymbols entries' symbols →
    (findSymbol symbols name).map ElfSymbol.kind = kind ∧
      ∀ best, findSymbol symbols name = some best → ∀ s ∈ entries', s.name = name →
        s.displaces best = false

/-- One symbol of the name is all that any of them is, and sorts in front of those of another
kind. -/
def ElfSymbol.Leads (top : ElfSymbol) (entries : List ElfSymbol) : Prop :=
  ∀ s ∈ entries, s.name = top.name →
    top.AtLeast s ∧ (s.kind = top.kind ∨ top.type < s.type)

section ByName

variable {name : String} {entries entries' symbols : List ElfSymbol}

theorem Readdressed.exists_of_mem (h : Readdressed name entries entries') {e' : ElfSymbol}
    (he' : e' ∈ entries') :
    ∃ e ∈ entries, e.name = e'.name ∧ e.type = e'.type ∧ e.kind = e'.kind := by
  induction h with
  | nil => cases he'
  | cons hstep _ ih =>
    obtain rfl | he' := List.mem_cons.mp he'
    · refine ⟨_, List.mem_cons_self, ?_⟩
      obtain rfl | ⟨_, value, rfl⟩ := hstep
      · exact ⟨rfl, rfl, rfl⟩
      · exact ⟨rfl, rfl, rfl⟩
    · obtain ⟨e, he, hsame⟩ := ih he'
      exact ⟨e, List.mem_cons_of_mem _ he, hsame⟩

theorem Readdressed.exists_mem (h : Readdressed name entries entries') {e : ElfSymbol}
    (he : e ∈ entries) :
    ∃ e' ∈ entries', e'.name = e.name ∧ e'.type = e.type ∧ e'.kind = e.kind := by
  induction h with
  | nil => cases he
  | cons hstep _ ih =>
    obtain rfl | he := List.mem_cons.mp he
    · refine ⟨_, List.mem_cons_self, ?_⟩
      obtain rfl | ⟨_, value, rfl⟩ := hstep
      · exact ⟨rfl, rfl, rfl⟩
      · exact ⟨rfl, rfl, rfl⟩
    · obtain ⟨e', he', hsame⟩ := ih he
      exact ⟨e', List.mem_cons_of_mem _ he', hsame⟩

/-- All symbols of the name at address 0. -/
def gathered (name : String) (entries : List ElfSymbol) : List ElfSymbol :=
  entries.map fun e => if e.name = name then { e with value := 0 } else e

theorem readdressed_gathered (name : String) (entries : List ElfSymbol) :
    Readdressed name entries (gathered name entries) := by
  unfold Readdressed gathered
  rw [List.forall₂_map_right_iff]
  refine List.forall₂_same.mpr fun e _ => ?_
  by_cases hname : e.name = name
  · rw [if_pos hname]
    exact .inr ⟨hname, 0, rfl⟩
  · rw [if_neg hname]
    exact .inl rfl

theorem group_of_mem_gathered {e : ElfSymbol} (he : e ∈ gathered name entries)
    (hname : e.name = name) : e.group = toLex (0, name) := by
  obtain ⟨e₀, _, rfl⟩ := List.mem_map.mp he
  by_cases hsame : e₀.name = name
  · rw [if_pos hsame]
    simp [ElfSymbol.group, hsame]
  · rw [if_neg hsame] at hname
    exact absurd hname hsame

/-- A symbol that leads is found, or another of its kind, wherever the symbols are. -/
theorem kind_findSymbol_of_leads {top : ElfSymbol} (htop : top ∈ entries)
    (hleads : top.Leads entries) (hreaddressed : Readdressed top.name entries entries')
    (hmerged : MergedSymbols entries' symbols) :
    ∃ best, findSymbol symbols top.name = some best ∧ best.kind = top.kind := by
  have hmerged := mergedSymbols_iff.mp hmerged
  obtain ⟨top', htop', hname, htype, hkind⟩ := hreaddressed.exists_mem htop
  obtain ⟨kept, hkept, hgroup⟩ := hmerged.exists_mem htop'
  have hkeptName : kept.name = top.name :=
    (ElfSymbol.group_eq_iff.mp hgroup).2.trans hname
  have hatLeast : ∀ s ∈ symbols, s.name = top.name →
      top.AtLeast s ∧ (s.kind = top.kind ∨ top.type < s.type) := by
    intro s hs hsname
    obtain ⟨e, he, hename, hetype, hekind⟩ := hreaddressed.exists_of_mem (hmerged.mem hs)
    obtain ⟨hat, hsame⟩ := hleads e he (hename.trans hsname)
    rw [hekind, hetype] at hsame
    refine ⟨?_, hsame⟩
    obtain ⟨hmore, hless⟩ := ElfSymbol.kind_eq_iff.mp hekind
    exact ⟨fun h => hat.1 (hmore.1 h), fun h => hat.2 (hmore.2 h)⟩
  -- what is kept at the address of the leading symbol is of its kind
  have hkeptKind : kept.kind = top.kind := by
    refine (hatLeast kept hkept hkeptName).2.resolve_right fun hlt => ?_
    have hle : kept.type ≤ top'.type := hmerged.rank_le hkept htop' hgroup.symm
    omega
  rw [findSymbol_eq]
  have hnothing : ∀ b ∈ (none : Option ElfSymbol), b.name = top.name ∧ top.AtLeast b :=
    fun b hb => nomatch hb
  obtain ⟨best, hbest, _, hbestKind⟩ := foldl_preferSymbol
    (fun s hs hsname => (hatLeast s hs hsname).1) hnothing
    (.inr ⟨kept, hkept, hkeptName, hkeptKind⟩)
  exact ⟨best, hbest, hbestKind⟩

/-- The choice by name is as it should be exactly when a symbol of the name leads the others. -/
theorem choiceByName_iff (tables : List SymbolTable) (name : String) :
    ChoiceByName (symbolEntries tables) name ↔
      (∀ s ∈ symbolEntries tables, s.name ≠ name) ∨
        ∃ top ∈ symbolEntries tables, top.name = name ∧ top.Leads (symbolEntries tables) := by
  generalize symbolEntries tables = entries
  constructor
  · intro h
    obtain ⟨kind, hchoice⟩ := h
    refine or_iff_not_imp_left.mpr fun hnamed => ?_
    obtain ⟨s₀, hs₀, hs₀name⟩ : ∃ s ∈ entries, s.name = name := by simpa using hnamed
    have hgathered := readdressed_gathered name entries
    -- a sort that keeps a symbol of another kind, if it can
    obtain ⟨symbols, hmerged, hbad⟩ := Representatives.exists_merged ElfSymbol.group ElfSymbol.type
      (fun s => some s.kind ≠ kind) (gathered name entries)
    obtain ⟨s₁, hs₁, hs₁name, _⟩ := hgathered.exists_mem hs₀
    obtain ⟨kept, hkept, hgroup⟩ := hmerged.exists_mem hs₁
    have hkeptName : kept.name = name :=
      (ElfSymbol.group_eq_iff.mp hgroup).2.trans (hs₁name.trans hs₀name)
    obtain ⟨best, hbest⟩ := findSymbol_isSome hkept hkeptName
    obtain ⟨hbestMem, hbestName⟩ := findSymbol_mem hbest
    obtain ⟨hkind, hstays⟩ := hchoice _ _ hgathered (mergedSymbols_iff.mpr hmerged)
    rw [hbest] at hkind
    have hbestGroup := group_of_mem_gathered (hmerged.mem hbestMem) hbestName
    obtain ⟨top, htop, htopName, htopType, htopKind⟩ :=
      hgathered.exists_of_mem (hmerged.mem hbestMem)
    refine ⟨top, htop, htopName.trans hbestName, fun s hs hsname => ?_⟩
    obtain ⟨s', hs', hs'name, hs'type, hs'kind⟩ := hgathered.exists_mem hs
    have hname' : s'.name = name := hs'name.trans (hsname.trans (htopName.trans hbestName))
    have hsame : s'.group = best.group :=
      (group_of_mem_gathered hs' hname').trans hbestGroup.symm
    constructor
    · have hnot := hstays best hbest s' hs' hname'
      have hat : best.AtLeast s' := by
        by_contra hdisplaced
        rw [ElfSymbol.displaces_iff.mpr hdisplaced] at hnot
        cases hnot
      obtain ⟨hmore, _⟩ := ElfSymbol.kind_eq_iff.mp htopKind
      obtain ⟨_, hless⟩ := ElfSymbol.kind_eq_iff.mp hs'kind
      exact ⟨fun h => hmore.1 (hat.1 ((ElfSymbol.kind_eq_iff.mp hs'kind).1.1 h)),
        fun h => hmore.2 (hat.2 ((ElfSymbol.kind_eq_iff.mp hs'kind).1.2 h))⟩
    · have hle : best.type ≤ s'.type := hmerged.rank_le hbestMem hs' hsame
      by_cases htie : s'.type = best.type
      · left
        have hgood : ¬some s'.kind ≠ kind := fun hother =>
          hbad best hbestMem s' hs' hsame htie hother hkind
        have heq : some s'.kind = some best.kind := (not_not.mp hgood).trans hkind.symm
        rw [← hs'kind, htopKind]
        exact Option.some.inj heq
      · right
        omega
  · intro h
    obtain hnone | ⟨top, htop, rfl, hleads⟩ := h
    · refine ⟨none, fun entries' symbols hreaddressed hmerged => ?_⟩
      have hfound : findSymbol symbols name = none := by
        by_contra hsome
        obtain ⟨best, hbest⟩ := Option.ne_none_iff_exists'.mp hsome
        obtain ⟨hmem, hname⟩ := findSymbol_mem hbest
        obtain ⟨e, he, hename, _⟩ :=
          hreaddressed.exists_of_mem ((mergedSymbols_iff.mp hmerged).mem hmem)
        exact hnone e he (hename.trans hname)
      exact ⟨by rw [hfound]; rfl, fun best hbest => by cases hfound.symm.trans hbest⟩
    · refine ⟨some top.kind, fun entries' symbols hreaddressed hmerged => ?_⟩
      obtain ⟨best, hbest, hkind⟩ := kind_findSymbol_of_leads htop hleads hreaddressed hmerged
      refine ⟨by rw [hbest, Option.map_some, hkind], fun other hother s hs hsname => ?_⟩
      cases hbest.symm.trans hother
      obtain ⟨e, he, hename, _, hekind⟩ := hreaddressed.exists_of_mem hs
      have hat := (hleads e he (hename.trans hsname)).1
      rw [← Bool.not_eq_true]
      refine fun hdisplaces => ElfSymbol.displaces_iff.mp hdisplaces ?_
      obtain ⟨hmore, _⟩ := ElfSymbol.kind_eq_iff.mp hkind
      obtain ⟨hsame, _⟩ := ElfSymbol.kind_eq_iff.mp hekind
      exact ⟨fun h => hmore.1 (hat.1 (hsame.1 h)), fun h => hmore.2 (hat.2 (hsame.2 h))⟩

end ByName

/-- A local function and a global object of one name displace each other. -/
theorem not_choiceByName :
    ¬ChoiceByName (symbolEntries [⟨[⟨1, 0x02, 1, 0x10, 8⟩, ⟨1, 0x11, 1, 0x20, 8⟩], [0, 102, 0]⟩])
      "f" := by
  intro h
  obtain ⟨kind, hchoice⟩ := h
  obtain ⟨_, hstays⟩ := hchoice _ _ (List.forall₂_same.mpr fun e _ => .inl rfl)
    ⟨_, .refl _, by decide +kernel, rfl⟩
  have hdisplaced := hstays ⟨"f", 0x20, 8, sttObject, stbGlobal⟩ (by decide +kernel)
    ⟨"f", 0x10, 8, sttFunc, stbLocal⟩ (by decide +kernel) rfl
  exact absurd hdisplaced (by decide)

end MiniDebugger
