import MiniDebugger.Dwarf.LineFormat

/-!
# The readers of `.debug_line` return what its bytes say

Each reader of `parse` moves a cursor; what it returns is what the bytes before the cursor say, as
`LineFormat` decodes them from the front. The readers accept less, never something else.
-/

namespace MiniDebugger

namespace LineProgram

section Reads

variable {bytes : List Byte} {stop cursor next : Nat} {what : String}

/-- What has been read of a string stays in front of what is still read. -/
theorem takeText_of_readCStringFrom {room : Nat} {result text : List Char}
    (hroom : cursor + room = stop)
    (h : readCStringFrom bytes what room result cursor = .ok (text, next)) :
    ∃ rest, takeText (codeAt bytes stop cursor) = some (rest, codeAt bytes stop next) ∧
      text = result ++ rest := by
  induction room generalizing result cursor with
  | zero => cases h
  | succ room ih =>
    unfold readCStringFrom at h
    split at h
    · cases h
    next byte hbyte =>
      have hcode := codeAt_cons (by omega : cursor < stop) hbyte
      split at h
      next hzero =>
        cases h
        refine ⟨[], ?_, (List.append_nil _).symm⟩
        rw [hcode, hzero]
        simp [takeText]
      next hnonzero =>
        obtain ⟨rest, htake, rfl⟩ := ih (by omega) h
        refine ⟨Char.ofNat byte.toNat :: rest, ?_, by rw [List.append_assoc, List.singleton_append]⟩
        unfold takeText at htake ⊢
        rw [hcode, List.dropWhile_cons_of_pos (by simpa using hnonzero),
          List.takeWhile_cons_of_pos (by simpa using hnonzero)]
        split at htake
        next => cases htake
        next first behind hdrop =>
          cases htake
          rfl

theorem takeText_of_readCString {text : List Char}
    (h : readCString bytes stop what cursor = .ok (text, next)) :
    takeText (codeAt bytes stop cursor) = some (text, codeAt bytes stop next) := by
  have hnext := readCString_next h
  have hroom : cursor + (stop - cursor) = stop := by omega
  obtain ⟨rest, htake, rfl⟩ := takeText_of_readCStringFrom hroom h
  exact htake

theorem takeFile_of_readV4FileEntry {file : FileEntry}
    (h : readV4FileEntry bytes stop cursor = .ok (file, next)) :
    takeFile (codeAt bytes stop cursor) = some (file, codeAt bytes stop next) := by
  obtain ⟨name, middle, hname, h⟩ := bind_ok h
  obtain ⟨directoryIndex, behind, hdirectory, h⟩ := bind_ok h
  obtain ⟨time, after, htime, h⟩ := bind_ok h
  obtain ⟨length, last, hlength, hdone⟩ := bind_ok h
  cases hdone
  simp [takeFile, takeText_of_readCString hname, takeNumber_of_readLineUleb hdirectory,
    takeNumber_of_readLineUleb htime, takeNumber_of_readLineUleb hlength]

/-- What a reader returns is what the bytes before it say. -/
def Reads {α β : Type} (bytes : List Byte) (stop : Nat) (read : Parse α)
    (take : List Byte → Option (β × List Byte)) (f : α → β) : Prop :=
  ∀ ⦃cursor a next⦄, read cursor = .ok (a, next) →
    take (codeAt bytes stop cursor) = some (f a, codeAt bytes stop next)

theorem reads_readTimes {α β : Type} {read : Parse α} {take : List Byte → Option (β × List Byte)}
    {f : α → β} (hread : Reads bytes stop read take f) (count : Nat) :
    Reads bytes stop (readTimes read count) (takeMany take count) (List.map f) := by
  induction count with
  | zero =>
    intro cursor a next h
    cases h
    rfl
  | succ count ih =>
    intro cursor a next h
    obtain ⟨first, middle, hfirst, h⟩ := bind_ok h
    obtain ⟨others, behind, hothers, hdone⟩ := bind_ok h
    cases hdone
    rw [takeMany, hread hfirst, Option.bind_eq_bind, Option.bind_some]
    dsimp only
    rw [ih hothers]
    rfl

/-! ### Directories and files of version 4 -/

theorem takeText_cons {byte : Byte} {code rest : List Byte} {text : List Char}
    (h : takeText (byte :: code) = some (text, rest)) :
    (byte = 0 ∧ text = [] ∧ rest = code) ∨ (byte ≠ 0 ∧ text ≠ []) := by
  unfold takeText at h
  by_cases hzero : byte = 0
  · rw [List.dropWhile_cons_of_neg (by simpa using hzero),
      List.takeWhile_cons_of_neg (by simpa using hzero)] at h
    cases h
    exact .inl ⟨hzero, rfl, rfl⟩
  · rw [List.dropWhile_cons_of_pos (by simpa using hzero),
      List.takeWhile_cons_of_pos (by simpa using hzero)] at h
    split at h
    · cases h
    · cases h
      exact .inr ⟨hzero, by simp⟩

/-- A string that can be read has a first byte, which is zero when the string is empty. -/
theorem cons_of_readCString {text : List Char}
    (h : readCString bytes stop what cursor = .ok (text, next)) :
    ∃ byte, codeAt bytes stop cursor = byte :: codeAt bytes stop (cursor + 1) ∧
      (text = [] → byte = 0 ∧ codeAt bytes stop next = codeAt bytes stop (cursor + 1)) ∧
      (text ≠ [] → byte ≠ 0) := by
  have htake := takeText_of_readCString h
  cases hcode : codeAt bytes stop cursor with
  | nil =>
    rw [hcode] at htake
    cases htake
  | cons byte code =>
    have hdrop : codeAt bytes stop (cursor + 1) = code := by rw [codeAt_drop, hcode]; rfl
    rw [hdrop]
    rw [hcode] at htake
    obtain ⟨rfl, rfl, hrest⟩ | ⟨hbyte, htext⟩ := takeText_cons htake
    · exact ⟨0, rfl, fun _ => ⟨rfl, hrest⟩, fun hne => absurd rfl hne⟩
    · exact ⟨byte, rfl, fun hempty => absurd hempty htext, fun _ => hbyte⟩

theorem takeList_of_readV4Directories {room : Nat} {directories : List FilePath}
    (hroom : stop - cursor ≤ room)
    (h : readV4Directories bytes stop cursor = .ok (directories, next)) :
    takeListFrom takeText room (codeAt bytes stop cursor) =
      some (directories, codeAt bytes stop next) := by
  induction room generalizing cursor directories with
  | zero =>
    rw [readV4Directories, if_neg (by omega)] at h
    cases h
    rw [codeAt_eq_nil (by omega)]
    rfl
  | succ room ih =>
    rw [readV4Directories] at h
    split at h
    case isFalse hend =>
      cases h
      rw [codeAt_eq_nil hend]
      rfl
    case isTrue =>
      split at h
      case h_1 => cases h
      case h_2 directory middle hdirectory =>
        obtain ⟨byte, hcode, hempty, hname⟩ := cons_of_readCString hdirectory
        have htake := takeText_of_readCString hdirectory
        rw [hcode] at htake ⊢
        rw [takeListFrom]
        split at h
        case isTrue hdone =>
          cases h
          obtain ⟨hzero, hrest⟩ := hempty hdone
          rw [if_pos hzero, hrest]
        case isFalse hmore =>
          obtain ⟨⟨others, behind⟩, hothers, hdone⟩ := Checks.bind_eq_ok.mp h
          cases hdone
          have hnext := readCString_next hdirectory
          rw [if_neg (hname hmore), htake, Option.bind_eq_bind, Option.bind_some]
          dsimp only
          rw [ih (by omega) hothers]
          rfl

theorem takeList_of_readV4Files {room : Nat} {files : List FileEntry} (hroom : stop - cursor ≤ room)
    (h : readV4Files bytes stop cursor = .ok (files, next)) :
    takeListFrom takeFile room (codeAt bytes stop cursor) =
      some (files, codeAt bytes stop next) := by
  induction room generalizing cursor files with
  | zero =>
    rw [readV4Files, if_neg (by omega)] at h
    cases h
    rw [codeAt_eq_nil (by omega)]
    rfl
  | succ room ih =>
    rw [readV4Files] at h
    split at h
    case isFalse hend =>
      cases h
      rw [codeAt_eq_nil hend]
      rfl
    case isTrue =>
      split at h
      case h_1 => cases h
      case h_2 name middle hread =>
        obtain ⟨byte, hcode, hempty, hname⟩ := cons_of_readCString hread
        split at h
        case isTrue hdone =>
          cases h
          obtain ⟨hzero, hrest⟩ := hempty hdone
          rw [hcode, takeListFrom, if_pos hzero, hrest]
        case isFalse hmore =>
          split at h
          case h_1 => cases h
          case h_2 file middle hfile =>
            obtain ⟨⟨others, behind⟩, hothers, hdone⟩ := Checks.bind_eq_ok.mp h
            cases hdone
            have hnext := readV4FileEntry_next hfile
            have htake := takeFile_of_readV4FileEntry hfile
            rw [hcode] at htake ⊢
            rw [takeListFrom, if_neg (hname hmore), htake, Option.bind_eq_bind, Option.bind_some]
            dsimp only
            rw [ih (by omega) hothers]
            rfl

/-! ### Entries of version 5 -/

/-- The content of a section. -/
def content (section_ : SectionRange bytes) : List Byte :=
  codeAt bytes section_.stop section_.offset

theorem takeText_of_readSectionString {section_ : Option (SectionRange bytes)} {offset : Nat}
    {text : List Char} (h : readSectionString bytes section_ offset what = .ok text) :
    Value.path (section_.map content) (.textAt offset) = some text := by
  unfold readSectionString at h
  cases section_ with
  | none => cases h
  | some range =>
    dsimp only at h
    split at h
    case isTrue => cases h
    case isFalse =>
      cases hread : readCString bytes range.stop what (range.offset + offset) with
      | error e =>
        rw [hread] at h
        cases h
      | ok result =>
        rw [hread] at h
        cases h
        have htake := takeText_of_readCString hread
        rw [codeAt_drop] at htake
        rw [Option.map_some, Value.path, Option.bind_some, content, htake]
        rfl

/-- A number of a fixed size fits into a word. -/
theorem toNat_ofNat_of_readLineScalar {size value : Nat} (hsize : size ≤ 8)
    (h : readLineScalar bytes stop size what cursor = .ok (value, next)) :
    (BitVec.ofNat 64 value).toNat = value := by
  have hlt := takeField_lt (takeField_of_readLineScalar h)
  have hpow : 256 ^ size ≤ 256 ^ 8 := Nat.pow_le_pow_right (by decide) hsize
  rw [BitVec.toNat_ofNat, Nat.mod_eq_of_lt (by omega)]

theorem takeValue_of_readV5PathForm {form : Word} {lineStrings : Option (SectionRange bytes)}
    {path : List Char}
    (h : readV5PathForm bytes stop form lineStrings cursor = .ok (path, next)) :
    ∃ value, takeValue form.toNat (codeAt bytes stop cursor) =
        some (value, codeAt bytes stop next) ∧
      value.path (lineStrings.map content) = some path := by
  unfold readV5PathForm at h
  split at h
  case isTrue hform =>
    subst hform
    refine ⟨.text path, ?_, rfl⟩
    show (takeText _).map _ = _
    rw [takeText_of_readCString h]
    rfl
  case isFalse =>
    split at h
    case isTrue hform =>
      subst hform
      obtain ⟨offset, middle, hoffset, h⟩ := bind_ok h
      cases htext : readSectionString bytes lineStrings offset "DWARF5 line string" with
      | error e =>
        rw [htext] at h
        cases h
      | ok text =>
        rw [htext] at h
        cases h
        refine ⟨.textAt offset, ?_, takeText_of_readSectionString htext⟩
        show (takeField 4 _).map _ = _
        rw [takeField_of_readLineScalar hoffset]
        rfl
    case isFalse => cases h

theorem takeValue_of_field {form size field : Nat}
    (hform : ∀ code, takeValue form code =
      (takeField size code).map fun (number, code) => (.number number, code))
    (h : readLineScalar bytes stop size what cursor = .ok (field, next)) :
    takeValue form (codeAt bytes stop cursor) =
      some (.number field, codeAt bytes stop next) := by
  rw [hform, takeField_of_readLineScalar h]
  rfl

theorem takeValue_of_readV5UnsignedForm {form number : Word}
    (h : readV5UnsignedForm bytes stop form cursor = .ok (number, next)) :
    ∃ value, takeValue form.toNat (codeAt bytes stop cursor) =
        some (value, codeAt bytes stop next) ∧ value.index = some number.toNat := by
  have hscalar : ∀ {size : Nat} {what : String}, size ≤ 8 →
      (∀ code, takeValue form.toNat code =
        (takeField size code).map fun (number, code) => (.number number, code)) →
      (do return BitVec.ofNat 64 (← readLineScalar bytes stop size what) : Parse Word) cursor =
        .ok (number, next) →
      ∃ value, takeValue form.toNat (codeAt bytes stop cursor) =
        some (value, codeAt bytes stop next) ∧ value.index = some number.toNat := by
    intro size what hsize hform h
    obtain ⟨field, middle, hfield, hdone⟩ := bind_ok h
    cases hdone
    refine ⟨.number field, takeValue_of_field hform hfield, ?_⟩
    rw [toNat_ofNat_of_readLineScalar hsize hfield]
    rfl
  unfold readV5UnsignedForm at h
  split at h
  case isTrue hform =>
    subst hform
    refine ⟨.number number.toNat, ?_, rfl⟩
    show (takeNumber _).map _ = _
    rw [takeNumber_of_readLineUleb h]
    rfl
  case isFalse =>
    split at h
    case isTrue hform =>
      subst hform
      exact hscalar (by decide) (fun _ => rfl) h
    case isFalse =>
      split at h
      case isTrue hform =>
        subst hform
        exact hscalar (by decide) (fun _ => rfl) h
      case isFalse =>
        split at h
        case isTrue hform =>
          subst hform
          exact hscalar (by decide) (fun _ => rfl) h
        case isFalse =>
          split at h
          case isTrue hform =>
            subst hform
            exact hscalar (by decide) (fun _ => rfl) h
          case isFalse => cases h

theorem takeValue_of_skipV5Form {form : Word} {done : Unit}
    (hfile : stop ≤ bytes.length) (h : skipV5Form bytes stop form cursor = .ok (done, next)) :
    ∃ value, takeValue form.toNat (codeAt bytes stop cursor) =
      some (value, codeAt bytes stop next) := by
  have hscalar : ∀ {size : Nat} {what : String},
      (∀ code, takeValue form.toNat code =
        (takeField size code).map fun (number, code) => (.number number, code)) →
      (do let _ ← readLineScalar bytes stop size what : Parse Unit) cursor = .ok (done, next) →
      ∃ value, takeValue form.toNat (codeAt bytes stop cursor) =
        some (value, codeAt bytes stop next) := by
    intro size what hform h
    obtain ⟨field, middle, hfield, hdone⟩ := bind_ok h
    cases hdone
    exact ⟨.number field, takeValue_of_field hform hfield⟩
  unfold skipV5Form at h
  split at h
  case isTrue hform =>
    subst hform
    obtain ⟨text, middle, htext, hdone⟩ := bind_ok h
    cases hdone
    refine ⟨.text text, ?_⟩
    show (takeText _).map _ = _
    rw [takeText_of_readCString htext]
    rfl
  case isFalse =>
  split at h
  case isTrue hform =>
    subst hform
    obtain ⟨offset, middle, hoffset, hdone⟩ := bind_ok h
    cases hdone
    refine ⟨.textAt offset, ?_⟩
    show (takeField 4 _).map _ = _
    rw [takeField_of_readLineScalar hoffset]
    rfl
  case isFalse =>
  split at h
  case isTrue hform =>
    subst hform
    obtain ⟨number, middle, hnumber, hdone⟩ := bind_ok h
    cases hdone
    refine ⟨.number number.toNat, ?_⟩
    show (takeNumber _).map _ = _
    rw [takeNumber_of_readLineUleb hnumber]
    rfl
  case isFalse =>
  split at h
  case isTrue hform =>
    subst hform
    obtain ⟨number, middle, hnumber, hdone⟩ := bind_ok h
    cases hdone
    refine ⟨.other, ?_⟩
    show (takeSigned _).map _ = _
    rw [takeSigned_of_readLineSleb hnumber]
    rfl
  case isFalse =>
  split at h
  case isTrue hform =>
    subst hform
    exact hscalar (fun _ => rfl) h
  case isFalse =>
  split at h
  case isTrue hform =>
    subst hform
    exact hscalar (fun _ => rfl) h
  case isFalse =>
  split at h
  case isTrue hform =>
    subst hform
    exact hscalar (fun _ => rfl) h
  case isFalse =>
  split at h
  case isTrue hform =>
    subst hform
    exact hscalar (fun _ => rfl) h
  case isFalse =>
  split at h
  case isFalse => cases h
  case isTrue hform =>
    subst hform
    obtain ⟨start, middle, hget, h⟩ := bind_ok h
    cases hget
    obtain ⟨hroom, hdone⟩ := ite_throw_ok h
    cases hdone
    refine ⟨.other, ?_⟩
    show (takeField 16 _).map _ = _
    rw [takeField_codeAt (by omega) (by omega)]
    rfl

/-- A column as the formats of the specification have it. -/
def columnFormat (format : EntryFormat) : Nat × Nat :=
  (format.contentType.toNat, format.form.toNat)

/-- The columns of an entry, from what the loop has found before them. -/
theorem takeColumns_of_foldlM {lineStrings : Option (SectionRange bytes)}
    (hfile : stop ≤ bytes.length) {formats : List EntryFormat}
    {entry final : Option (List Char) × Word}
    (h : formats.foldlM (readV5Column bytes stop lineStrings) entry cursor = .ok (final, next)) :
    ∃ columns, takeColumns (formats.map columnFormat) (codeAt bytes stop cursor) =
        some (columns, codeAt bytes stop next) ∧
      final.1 = entry.1.or (pathOf (lineStrings.map content) columns) ∧
      final.2 = BitVec.ofNat 64 (directoryOf entry.2.toNat columns) := by
  induction formats generalizing entry cursor with
  | nil =>
    cases h
    refine ⟨[], rfl, ?_, ?_⟩
    · exact (Option.or_none).symm
    · simp [directoryOf]
  | cons format formats ih =>
    rw [List.foldlM_cons] at h
    obtain ⟨entry', middle, hcolumn, h⟩ := bind_ok h
    obtain ⟨columns, hcolumns, hpath, hdirectory⟩ := ih h
    have hcons : ∀ {value}, takeValue format.form.toNat (codeAt bytes stop cursor) =
          some (value, codeAt bytes stop middle) →
        takeColumns ((format :: formats).map columnFormat) (codeAt bytes stop cursor) =
          some ((format.contentType.toNat, value) :: columns, codeAt bytes stop next) := by
      intro value hvalue
      rw [List.map_cons, takeColumns, columnFormat]
      dsimp only
      rw [hvalue, Option.bind_eq_bind, Option.bind_some]
      dsimp only
      rw [hcolumns]
      rfl
    unfold readV5Column at hcolumn
    split at hcolumn
    case isTrue hcontent =>
      obtain ⟨hfresh, hcolumn⟩ := ite_throw_ok hcolumn
      obtain ⟨path, behind, hread, hdone⟩ := bind_ok hcolumn
      cases hdone
      obtain ⟨value, htake, hvalue⟩ := takeValue_of_readV5PathForm hread
      have hnone : entry.1 = none := by simpa using hfresh
      refine ⟨_, hcons htake, ?_, ?_⟩
      · rw [hpath, hnone, hcontent]
        show some path = pathOf _ ((1, value) :: columns)
        rw [pathOf, List.lookup_cons_self, Option.bind_some, hvalue]
      · rw [hdirectory, hcontent]
        rfl
    case isFalse hother =>
      split at hcolumn
      case isTrue hcontent =>
        obtain ⟨number, behind, hread, hdone⟩ := bind_ok hcolumn
        cases hdone
        obtain ⟨value, htake, hvalue⟩ := takeValue_of_readV5UnsignedForm hread
        refine ⟨_, hcons htake, ?_, ?_⟩
        · rw [hpath, hcontent]
          rfl
        · rw [hdirectory, hcontent]
          show _ = BitVec.ofNat 64 (directoryOf (value.index.getD entry.2.toNat) columns)
          rw [hvalue]
          rfl
      case isFalse hunknown =>
        obtain ⟨done, behind, hread, hdone⟩ := bind_ok hcolumn
        cases hdone
        obtain ⟨value, htake⟩ := takeValue_of_skipV5Form hfile hread
        have hone : format.contentType.toNat ≠ 1 := fun h => hother (BitVec.eq_of_toNat_eq h)
        have htwo : format.contentType.toNat ≠ 2 := fun h => hunknown (BitVec.eq_of_toNat_eq h)
        refine ⟨_, hcons htake, ?_, ?_⟩
        · rw [hpath, pathOf, pathOf, List.lookup_cons, beq_false_of_ne hone.symm]
        · rw [hdirectory, directoryOf, directoryOf, List.foldl_cons]
          dsimp only
          rw [if_neg htwo]

section Tables

variable {lineStrings : Option (SectionRange bytes)} (hfile : stop ≤ bytes.length)
include hfile

theorem reads_readV5Entry (formats : List EntryFormat) :
    Reads bytes stop (readV5Entry bytes stop formats lineStrings)
      (takeEntry (lineStrings.map content) (formats.map columnFormat)) id := by
  intro cursor file next h
  obtain ⟨entry, middle, hcolumns, h⟩ := bind_ok h
  obtain ⟨columns, htake, hpath, hdirectory⟩ := takeColumns_of_foldlM hfile hcolumns
  obtain ⟨path, directory⟩ := entry
  cases path with
  | none => cases h
  | some path =>
    cases h
    have hpath : pathOf (lineStrings.map content) columns = some path := hpath.symm
    have hdirectory : directory = BitVec.ofNat 64 (directoryOf 0 columns) := hdirectory
    rw [takeEntry, htake, Option.bind_eq_bind, Option.bind_some]
    dsimp only
    rw [hpath, hdirectory]
    rfl

omit hfile in
theorem reads_entryFormat : Reads bytes stop (do
    let contentType ← readLineUleb bytes stop
    let form ← readLineUleb bytes stop
    return (⟨contentType, form⟩ : EntryFormat)) takeFormat columnFormat := by
  intro cursor format next h
  obtain ⟨contentType, middle, hcontent, h⟩ := bind_ok h
  obtain ⟨form, behind, hform, hdone⟩ := bind_ok h
  cases hdone
  rw [takeFormat, takeNumber_of_readLineUleb hcontent, Option.bind_eq_bind, Option.bind_some]
  dsimp only
  rw [takeNumber_of_readLineUleb hform]
  rfl

theorem takeTable_of_readV5Table {formatCount tooMany : String} {files : List FileEntry}
    (h : readV5Table bytes stop lineStrings formatCount tooMany cursor = .ok (files, next)) :
    takeTable (lineStrings.map content) (codeAt bytes stop cursor) =
      some (files, codeAt bytes stop next) := by
  obtain ⟨formats, middle, hformats, h⟩ := bind_ok h
  obtain ⟨formatsCount, start, hstart, hformats⟩ := bind_ok hformats
  obtain ⟨count, behind, hcount, h⟩ := bind_ok h
  obtain ⟨position, behind, hget, h⟩ := bind_ok h
  cases hget
  obtain ⟨hroom, h⟩ := ite_throw_ok h
  have hentries := reads_readTimes (reads_readV5Entry hfile formats) count.toNat h
  rw [List.map_id] at hentries
  rw [takeTable, takeField_of_readLineScalar hstart, Option.bind_eq_bind, Option.bind_some]
  dsimp only
  rw [reads_readTimes reads_entryFormat formatsCount hformats, Option.bind_eq_bind,
    Option.bind_some]
  dsimp only
  rw [takeNumber_of_readLineUleb hcount]
  exact hentries

end Tables

theorem takeTables_of_readLineFiles {unit : LineUnit} {lineStrings : Option (SectionRange bytes)}
    {tables : List FilePath × List FileEntry} (hfile : unit.headerEnd ≤ bytes.length)
    (h : readLineFiles bytes unit lineStrings cursor = .ok (tables, next)) :
    takeTables unit.dwarf5 (lineStrings.map content) (codeAt bytes unit.headerEnd cursor) =
      some tables := by
  unfold readLineFiles at h
  unfold takeTables
  split at h
  case isTrue hversion =>
    rw [if_pos hversion]
    obtain ⟨tables, middle, htables, h⟩ := bind_ok h
    obtain ⟨position, behind, hget, h⟩ := bind_ok h
    obtain ⟨hend, hdone⟩ := ite_throw_ok h
    cases hdone
    obtain ⟨directories, behind, hdirectories, h⟩ := bind_ok htables
    obtain ⟨files, last, hfiles, hdone⟩ := bind_ok h
    cases hdone
    rw [takeTable_of_readV5Table hfile hdirectories, Option.bind_eq_bind, Option.bind_some]
    dsimp only
    rw [takeTable_of_readV5Table hfile hfiles]
    rfl
  case isFalse hversion =>
    rw [if_neg hversion]
    obtain ⟨directories, middle, hdirectories, h⟩ := bind_ok h
    obtain ⟨files, behind, hfiles, hdone⟩ := bind_ok h
    cases hdone
    have hroom : ∀ {position}, unit.headerEnd - position ≤
        (codeAt bytes unit.headerEnd position).length := fun {position} => by
      rw [codeAt_length hfile]
    rw [takeList, takeList_of_readV4Directories hroom hdirectories, Option.bind_eq_bind,
      Option.bind_some]
    dsimp only
    rw [takeList, takeList_of_readV4Files hroom hfiles]
    rfl

theorem takeParameters_of_readLineParameters {unit : LineUnit}
    {lineStrings : Option (SectionRange bytes)} {parameters : LineParameters}
    (hfile : unit.headerEnd ≤ bytes.length)
    (h : readLineParameters bytes unit lineStrings cursor = .ok (parameters, next)) :
    takeParameters unit.dwarf5 (lineStrings.map content) (codeAt bytes unit.headerEnd cursor) =
      some parameters := by
  obtain ⟨minimumInstructionLength, _, hlength, h⟩ := bind_ok h
  obtain ⟨maximumOperations, _, hoperations, h⟩ := bind_ok h
  obtain ⟨hsingle, h⟩ := ite_throw_ok h
  obtain ⟨defaultIsStmt, _, hstmt, h⟩ := bind_ok h
  obtain ⟨lineBase, _, hbase, h⟩ := bind_ok h
  obtain ⟨lineRange, _, hrange, h⟩ := bind_ok h
  obtain ⟨opcodeBase, _, hopcodes, h⟩ := bind_ok h
  obtain ⟨hvalid, h⟩ := ite_throw_ok h
  obtain ⟨standardOpcodeLengths, _, hlengths, h⟩ := bind_ok h
  obtain ⟨tables, _, htables, hdone⟩ := bind_ok h
  cases hdone
  have hbytes : Reads bytes unit.headerEnd
      (readLineScalar bytes unit.headerEnd 1 "standard opcode operand count") (takeField 1) id :=
    fun _ _ _ => takeField_of_readLineScalar
  have hlengths := reads_readTimes hbytes (opcodeBase - 1) hlengths
  rw [List.map_id] at hlengths
  simp only [takeParameters, Option.bind_eq_bind, takeField_of_readLineScalar hlength,
    takeField_of_readLineScalar hoperations, takeField_of_readLineScalar hstmt,
    takeField_of_readLineScalar hbase, takeField_of_readLineScalar hrange,
    takeField_of_readLineScalar hopcodes, hlengths, takeTables_of_readLineFiles hfile htables,
    Option.bind_some]
  rfl

/-! ### Headers of units -/

theorem takeBlock_of_readLineScalar {length : Nat} (hfile : stop ≤ bytes.length)
    (h : readLineScalar bytes stop 4 what cursor = .ok (length, next))
    (hroom : next + length ≤ stop) :
    takeBlock (codeAt bytes stop cursor) =
      some (codeAt bytes (next + length) next, codeAt bytes stop (next + length)) := by
  rw [takeBlock, takeField_of_readLineScalar h, Option.bind_eq_bind, Option.bind_some]
  dsimp only
  rw [if_neg, codeAt_take hroom, codeAt_drop]
  rw [codeAt_length hfile]
  omega

theorem takeBlock_of_readUnitLength {unitEnd : Nat} (hfile : stop ≤ bytes.length)
    (h : readUnitLength bytes stop cursor = .ok (unitEnd, next)) :
    takeBlock (codeAt bytes stop cursor) =
      some (codeAt bytes unitEnd next, codeAt bytes stop unitEnd) := by
  have hends := readUnitLength_next h
  obtain ⟨unitLength, middle, hlength, h⟩ := bind_ok h
  obtain ⟨hdwarf32, h⟩ := ite_throw_ok h
  obtain ⟨hzero, h⟩ := ite_throw_ok h
  obtain ⟨start, behind, hget, h⟩ := bind_ok h
  cases hget
  obtain ⟨hfits, hdone⟩ := ite_throw_ok h
  cases hdone
  exact takeBlock_of_readLineScalar hfile hlength (by omega)

theorem takeBlock_of_readHeaderLength {headerEnd : Nat} (hfile : stop ≤ bytes.length)
    (h : readHeaderLength bytes stop cursor = .ok (headerEnd, next)) :
    takeBlock (codeAt bytes stop cursor) =
      some (codeAt bytes headerEnd next, codeAt bytes stop headerEnd) := by
  have hends := readHeaderLength_next h
  obtain ⟨headerLength, middle, hlength, h⟩ := bind_ok h
  obtain ⟨start, behind, hget, h⟩ := bind_ok h
  cases hget
  obtain ⟨hfits, hdone⟩ := ite_throw_ok h
  cases hdone
  exact takeBlock_of_readLineScalar hfile hlength (by omega)

theorem takeField_of_readLineVersion {dwarf5 : Bool}
    (h : readLineVersion bytes stop cursor = .ok (dwarf5, next)) :
    ∃ version, takeField 2 (codeAt bytes stop cursor) =
        some (version, codeAt bytes stop next) ∧
      ¬(version ≠ 4 ∧ version ≠ 5) ∧ dwarf5 = decide (version = 5) := by
  obtain ⟨version, middle, hversion, h⟩ := bind_ok h
  obtain ⟨hsupported, hdone⟩ := ite_throw_ok h
  cases hdone
  exact ⟨version, takeField_of_readLineScalar hversion, hsupported, rfl⟩

theorem skipSizes_of_readAddressSize {addressSize version : Nat} (hfile : stop ≤ bytes.length)
    (h : readAddressSize bytes stop (version = 5) cursor = .ok (addressSize, next)) :
    skipSizes version (codeAt bytes stop cursor) = some (codeAt bytes stop next) := by
  unfold readAddressSize at h
  unfold skipSizes
  simp only [decide_eq_true_eq] at h
  split at h
  case isFalse hversion =>
    cases h
    exact if_neg hversion
  case isTrue hversion =>
    obtain ⟨addressSize, middle, hsize, h⟩ := bind_ok h
    obtain ⟨selectorSize, behind, hselector, h⟩ := bind_ok h
    obtain ⟨helf64, h⟩ := ite_throw_ok h
    obtain ⟨hflat, hdone⟩ := ite_throw_ok h
    cases hdone
    obtain ⟨rfl, -⟩ := readLineScalar_next hsize
    obtain ⟨rfl, hlimit⟩ := readLineScalar_next hselector
    rw [if_pos hversion, takeField_codeAt (by omega) (by omega)]
    rfl

end Reads

end LineProgram

open LineProgram

/-- What a header says about the program of its unit. -/
abbrev LineHeader.described (header : LineHeader) : Header :=
  ⟨header.toLineParameters, header.dwarf5⟩

theorem takeUnit_of_readLineHeader {bytes : List Byte} {sectionEnd cursor start : Nat}
    {lineStrings : Option (SectionRange bytes)} {header : LineHeader}
    (hfile : sectionEnd ≤ bytes.length)
    (h : readLineHeader bytes sectionEnd lineStrings cursor = .ok (header, start)) :
    takeUnit (lineStrings.map content) (codeAt bytes sectionEnd cursor) =
      some (header.described, codeAt bytes header.unitEnd start,
        codeAt bytes sectionEnd header.unitEnd) := by
  obtain ⟨unit, middle, hunit, h⟩ := bind_ok h
  obtain ⟨parameters, behind, hparameters, hdone⟩ := bind_ok h
  cases hdone
  obtain ⟨unitEnd, _, hunitEnd, h⟩ := bind_ok hunit
  obtain ⟨dwarf5, _, hversion, h⟩ := bind_ok h
  obtain ⟨addressSize, _, hsize, h⟩ := bind_ok h
  obtain ⟨headerEnd, _, hheader, hunit⟩ := bind_ok h
  cases hunit
  obtain ⟨_, _, hunitFile⟩ := readUnitLength_next hunitEnd
  obtain ⟨_, hheaderFile⟩ := readHeaderLength_next hheader
  obtain ⟨version, htake, hsupported, rfl⟩ := takeField_of_readLineVersion hversion
  have hsizes := skipSizes_of_readAddressSize (hunitFile.trans hfile) hsize
  simp only [takeUnit, Option.bind_eq_bind, takeBlock_of_readUnitLength hfile hunitEnd,
    Option.bind_some, htake, if_neg hsupported, hsizes,
    takeBlock_of_readHeaderLength (hunitFile.trans hfile) hheader,
    takeParameters_of_readLineParameters ((hheaderFile.trans hunitFile).trans hfile) hparameters]
  rfl

/-! ### Sections -/

section Sections

variable {bytes : List Byte}

/-- A section header as its fields have it. -/
def sectionHeaderAt (file : List Byte) (index : Nat) : SectionHeader where
  name := sectionField file index 0 4
  flags := sectionField file index 8 8
  offset := sectionField file index 24 8
  size := sectionField file index 32 8

theorem readSectionHeader_ok {index : Nat} {header : SectionHeader}
    (h : readSectionHeader bytes (fileField bytes 40 8) index = .ok header) :
    header = sectionHeaderAt bytes index := by
  obtain ⟨bound, -, h⟩ := Checks.bind_eq_ok.mp h
  cases h
  rfl

theorem headers_of_mapM {count : Nat} {headers : List SectionHeader}
    (h : (List.range count).mapM (readSectionHeader bytes (fileField bytes 40 8)) = .ok headers) :
    headers = (List.range count).map (sectionHeaderAt bytes) := by
  have hall := (Checks.mapM_eq_ok.mp h).imp fun _ _ hread => (readSectionHeader_ok hread).symm
  rw [← List.forall₂_map_left_iff (R := (· = ·)), List.forall₂_eq_eq_eq] at hall
  exact hall.symm

theorem content_of_requireLineRange {offset size : Nat} {what : String}
    {range : SectionRange bytes} (h : requireLineRange bytes offset size what = .ok range) :
    content range = (bytes.drop offset).take size ∧ range.offset = offset ∧ range.size = size := by
  unfold requireLineRange at h
  split at h
  case isTrue => cases h
  case isFalse =>
    cases h
    refine ⟨?_, rfl, rfl⟩
    rw [content, codeAt, SectionRange.stop, List.drop_take, Nat.add_sub_cancel_left]

theorem findSectionIn_ok {names : SectionRange bytes} {name : String} {indices : List Nat}
    {section_ : Option (SectionRange bytes)}
    (hnames : content names = sectionContent bytes (namesIndex bytes))
    (h : findSectionIn bytes names name (indices.map (sectionHeaderAt bytes)) = .ok section_) :
    (indices.find? (sectionName bytes · = some name.toList)).map (sectionContent bytes) =
      section_.map content := by
  have hlength : (content names).length = names.size := by
    have hstop : names.stop ≤ bytes.length := names.within
    rw [content, codeAt_length hstop, SectionRange.stop, Nat.add_sub_cancel_left]
  induction indices with
  | nil =>
    cases h
    rfl
  | cons index indices ih =>
    rw [List.map_cons, findSectionIn] at h
    have hskip : ∀ found, sectionName bytes index = found → found ≠ some name.toList →
        findSectionIn bytes names name (indices.map (sectionHeaderAt bytes)) = .ok section_ →
        ((index :: indices).find? (sectionName bytes · = some name.toList)).map
          (sectionContent bytes) = section_.map content := by
      intro found hfound hne hrest
      rw [List.find?_cons_of_neg (by simpa [hfound] using hne)]
      exact ih hrest
    split at h
    case isTrue hbound =>
      refine hskip none ?_ nofun h
      rw [sectionName, ← hnames, hlength]
      exact if_pos hbound
    case isFalse hbound =>
      obtain ⟨⟨found, next⟩, hread, h⟩ := Checks.bind_eq_ok.mp h
      have hfound : sectionName bytes index = some found := by
        have htake := LineProgram.takeText_of_readCString hread
        rw [codeAt_drop] at htake
        rw [sectionName, ← hnames, hlength]
        exact (if_neg hbound).trans (congrArg (Option.map (·.1)) htake)
      dsimp only at h
      split at h
      case isTrue hother => exact hskip _ hfound (by simpa using hother) h
      case isFalse hsame =>
        obtain ⟨-, h⟩ := Checks.ite_throw_eq_ok.mp h
        obtain ⟨range, hrange, hdone⟩ := Checks.bind_eq_ok.mp h
        cases hdone
        rw [List.find?_cons_of_pos (by simpa [hfound] using hsame), Option.map_some,
          Option.map_some, (content_of_requireLineRange hrange).1]
        rfl

/-- `find_debug_section` finds the first section of the name. -/
theorem sectionNamed_of_findDebugSection {name : String} {section_ : Option (SectionRange bytes)}
    (h : findDebugSection bytes name = .ok section_) :
    sectionNamed bytes name = section_.map content := by
  unfold findDebugSection at h
  simp only [Checks.throw_bind] at h
  obtain ⟨-, -, h⟩ := Checks.bind_eq_ok.mp h
  obtain ⟨-, h⟩ := Checks.ite_throw_eq_ok.mp h
  obtain ⟨-, h⟩ := Checks.ite_throw_eq_ok.mp h
  obtain ⟨-, h⟩ := Checks.ite_throw_eq_ok.mp h
  unfold sectionNamed
  split at h
  case isTrue hnone =>
    cases h
    exact if_pos (.inr (by rw [sectionCount, ← fileField, hnone]; exact Nat.zero_le _))
  case isFalse =>
    obtain ⟨-, h⟩ := Checks.ite_throw_eq_ok.mp h
    obtain ⟨-, h⟩ := Checks.ite_throw_eq_ok.mp h
    split at h
    case isTrue hunnamed =>
      cases h
      exact if_pos hunnamed
    case isFalse hnamed =>
      refine (if_neg hnamed).trans ?_
      obtain ⟨headers, hheaders, h⟩ := Checks.bind_eq_ok.mp h
      obtain rfl := headers_of_mapM hheaders
      have hindex : namesIndex bytes < sectionCount bytes := Nat.not_le.mp (not_or.mp hnamed).2
      have hnames : ((List.range (fileField bytes 60 2)).map (sectionHeaderAt bytes))[
          fileField bytes 62 2]? = some (sectionHeaderAt bytes (namesIndex bytes)) := by
        rw [List.getElem?_map]
        exact congrArg (Option.map (sectionHeaderAt bytes)) (List.getElem?_range hindex)
      rw [hnames] at h
      obtain ⟨names, hnames, h⟩ := Checks.bind_eq_ok.mp h
      exact findSectionIn_ok (content_of_requireLineRange hnames).1 h

end Sections

end MiniDebugger
