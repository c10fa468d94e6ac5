import Mathlib.Data.List.TakeWhile
import MiniDebugger.Checks
import MiniDebugger.Crc
import MiniDebugger.Dwarf.DebugSection
import MiniDebugger.Dwarf.Operands

/-!
# GNU debuglinks

A stripped module names its debug companion in `.gnu_debuglink`: the name, padding and the check of
the companion. `read_gnu_debuglink` takes the section apart and `gnu_debuglink_crc32` computes the
check, bit by bit.
-/

namespace MiniDebugger

open Checks

structure GnuDebugLink where
  filename : List Byte
  crc32 : BitVec 32
  deriving DecidableEq, Repr

/-- The character `'/'` -/
def kSlash : Byte := 0x2f

/-- The string `".gnu_debuglink"` -/
def gnuDebuglinkName : List Byte :=
  [0x2e, 0x67, 0x6e, 0x75, 0x5f, 0x64, 0x65, 0x62, 0x75, 0x67, 0x6c, 0x69, 0x6e, 0x6b]

/-- The characters before the first null, which there must be. -/
def terminated : List Byte → Option (List Byte)
  | [] => none
  | character :: rest =>
    if character = 0 then some [] else (terminated rest).map (character :: ·)

/-- `path::filename`: what follows the last slash -/
def filenameOf (path : List Byte) : List Byte := (path.reverse.takeWhile (· ≠ kSlash)).reverse

def sectionName (bytes : List Byte) (strings : SectionRange bytes) (offset : Nat) :
    Except Exception (List Byte) :=
  if strings.size ≤ offset then throw (.runtimeError "ELF section name offset is out of range")
  else
    match terminated ((bytes.drop (strings.offset + offset)).take (strings.size - offset)) with
    | none => throw (.runtimeError "ELF section name is not terminated")
    | some name => return name

/-- What `read_gnu_debuglink` does with the bytes of the section. -/
def debuglinkOf (content : List Byte) : Except Exception GnuDebugLink :=
  if content.length < 5 then throw (.runtimeError ".gnu_debuglink section is truncated")
  else
    match terminated content with
    | none => throw (.runtimeError ".gnu_debuglink contains an invalid filename")
    | some filename =>
      if filename = [] ∨ filenameOf filename ≠ filename then
        throw (.runtimeError ".gnu_debuglink contains an invalid filename")
      else
        let relative := filename.length
        let crcRelative := (relative + 1 + 3) / 4 * 4
        if content.length < crcRelative ∨ content.length - crcRelative ≠ 4 then
          throw (.runtimeError ".gnu_debuglink has an invalid CRC field")
        else if ¬∀ byte ∈ (content.drop (relative + 1)).take (crcRelative - (relative + 1)),
            byte = 0 then
          throw (.runtimeError ".gnu_debuglink contains non-zero padding")
        else
          return ⟨filename, BitVec.ofNat 32 (littleEndian ((content.drop crcRelative).take 4))⟩

/-- The bytes of a section. -/
def SectionRange.content {bytes : List Byte} (range : SectionRange bytes) : List Byte :=
  (bytes.drop range.offset).take range.size

/-- A round of the loop over the sections. -/
def debuglinkRound (bytes : List Byte) (names : SectionRange bytes)
    (result : Option GnuDebugLink) (header : SectionHeader) :
    Except Exception (Option GnuDebugLink) := do
  let name ← sectionName bytes names header.name
  if name ≠ gnuDebuglinkName then return result
  else if result.isSome then
    throw (.runtimeError "runtime ELF contains duplicate .gnu_debuglink sections")
  else
    let range ← requireLineRange bytes header.offset header.size ".gnu_debuglink"
    return some (← debuglinkOf range.content)

/-- The section headers of a file and the section with their names. -/
def debuglinkSections (bytes : List Byte) :
    Except Exception (Option (List SectionHeader × SectionRange bytes)) := do
  let _ ← readLineAt bytes 0 64 "ELF header"
  if bytes.take 4 ≠ [0x7f, 0x45, 0x4c, 0x46] ∨ fileField bytes 4 1 ≠ 2 ∨ fileField bytes 5 1 ≠ 1 ∨
      fileField bytes 18 2 ≠ 62 then
    throw (.runtimeError "snapshot runtime module is not supported x86-64 ELF64")
  let count := fileField bytes 60 2
  let namesIndex := fileField bytes 62 2
  if count = 0 ∨ namesIndex = kShnUndef then return none
  if fileField bytes 58 2 ≠ 64 ∨ namesIndex = kShnXindex ∨ count ≤ namesIndex then
    throw (.runtimeError "unsupported ELF section table for GNU debuglink")
  let tableOffset := fileField bytes 40 8
  let _ ← requireLineRange bytes tableOffset (count * 64) "ELF section table"
  let headers ← (List.range count).mapM (readSectionHeader bytes tableOffset)
  match headers[namesIndex]? with
  | none => return none
  | some names =>
    let names ← requireLineRange bytes names.offset names.size "ELF section-name table"
    return some (headers, names)

/-- `read_gnu_debuglink`, of the bytes that `read_file` returns -/
def readGnuDebuglink (bytes : List Byte) : Except Exception (Option GnuDebugLink) := do
  match ← debuglinkSections bytes with
  | none => return none
  | some (headers, names) => headers.foldlM (debuglinkRound bytes names) none

/-! ## The format -/

/-- The padding behind a name and its null. -/
def debuglinkPadding (length : Nat) : Nat := (4 - (length + 1) % 4) % 4

/-- The section of a link. -/
def GnuDebugLink.encode (link : GnuDebugLink) : List Byte :=
  link.filename ++ 0 :: (List.replicate (debuglinkPadding link.filename.length) 0 ++
    fieldBytes 4 link.crc32.toNat)

/-- The name is one character at least, none of which is a slash or a null. -/
structure GnuDebugLink.Named (link : GnuDebugLink) : Prop where
  nonempty : link.filename ≠ []
  noSlash : kSlash ∉ link.filename
  noNull : 0 ∉ link.filename

theorem debuglinkPadding_add (length : Nat) :
    length + 1 + debuglinkPadding length = (length + 1 + 3) / 4 * 4 := by
  unfold debuglinkPadding
  omega

theorem terminated_eq_some_iff {l text : List Byte} :
    terminated l = some text ↔ 0 ∉ text ∧ ∃ rest, l = text ++ 0 :: rest := by
  induction l generalizing text with
  | nil => simp [terminated]
  | cons character l ih =>
    unfold terminated
    split
    · next hnull =>
      subst hnull
      constructor
      · intro h
        cases h
        exact ⟨List.not_mem_nil, l, rfl⟩
      · rintro ⟨htext, rest, hrest⟩
        cases text with
        | nil => rfl
        | cons first text =>
          cases hrest
          exact absurd List.mem_cons_self htext
    · next hcharacter =>
      rw [Option.map_eq_some_iff]
      constructor
      · rintro ⟨tail, htail, rfl⟩
        obtain ⟨hnull, rest, rfl⟩ := ih.mp htail
        have hmem : 0 ∉ character :: tail := by
          rw [List.mem_cons, not_or]
          exact ⟨Ne.symm hcharacter, hnull⟩
        exact ⟨hmem, rest, rfl⟩
      · rintro ⟨htext, rest, hrest⟩
        cases text with
        | nil =>
          cases hrest
          exact absurd rfl hcharacter
        | cons first text =>
          cases hrest
          exact ⟨text, ih.mpr ⟨fun h => htext (List.mem_cons_of_mem _ h), rest, rfl⟩, rfl⟩

theorem filenameOf_eq_self_iff {path : List Byte} : filenameOf path = path ↔ kSlash ∉ path := by
  rw [filenameOf, List.reverse_eq_iff, List.takeWhile_eq_self_iff]
  constructor
  · intro h hmem
    simpa using h kSlash (List.mem_reverse.mpr hmem)
  · intro h byte hbyte
    have hmem := List.mem_reverse.mp hbyte
    simpa using fun heq : byte = kSlash => h (heq ▸ hmem)

/-- The bytes of a field are those of its value. -/
theorem fieldBytes_littleEndian (bytes : List Byte) :
    fieldBytes bytes.length (littleEndian bytes) = bytes := by
  induction bytes with
  | nil => rfl
  | cons byte bytes ih =>
    have hbyte := byte.isLt
    have hlow : BitVec.ofNat 8 (byte.toNat + 256 * littleEndian bytes) = byte := by
      refine BitVec.eq_of_toNat_eq ?_
      rw [BitVec.toNat_ofNat]
      omega
    have hhigh : (byte.toNat + 256 * littleEndian bytes) / 256 = littleEndian bytes := by omega
    rw [List.length_cons, littleEndian, fieldBytes, hlow, hhigh, ih]

theorem drop_after_null (text rest : List Byte) (count : Nat) :
    (text ++ 0 :: rest).drop (text.length + 1 + count) = rest.drop count := by
  rw [Nat.add_assoc, List.drop_append, List.drop_of_length_le (by omega), List.nil_append,
    Nat.add_sub_cancel_left, Nat.add_comm, List.drop_succ_cons]

/-- What stands behind the name: the padding and the check. -/
def GnuDebugLink.tail (link : GnuDebugLink) : List Byte :=
  List.replicate (debuglinkPadding link.filename.length) 0 ++ fieldBytes 4 link.crc32.toNat

theorem GnuDebugLink.Named.terminated {link : GnuDebugLink} (h : link.Named) :
    terminated link.encode = some link.filename :=
  terminated_eq_some_iff.mpr ⟨h.noNull, link.tail, rfl⟩

/-- The bytes behind a name are its padding and a check if there are that many and the padding is
zero. -/
theorem eq_tail_iff {filename rest : List Byte} {crc32 : BitVec 32} :
    rest = (GnuDebugLink.mk filename crc32).tail ↔
      rest.length = debuglinkPadding filename.length + 4 ∧
      (∀ byte ∈ rest.take (debuglinkPadding filename.length), byte = 0) ∧
      BitVec.ofNat 32 (littleEndian ((rest.drop (debuglinkPadding filename.length)).take 4)) =
        crc32 := by
  unfold GnuDebugLink.tail
  dsimp only
  generalize debuglinkPadding filename.length = padding
  constructor
  · rintro rfl
    refine ⟨by simp, fun byte hbyte => ?_, ?_⟩
    · rw [List.take_left' (List.length_replicate)] at hbyte
      exact List.eq_of_mem_replicate hbyte
    · rw [List.drop_left' (List.length_replicate), List.take_of_length_le (by simp),
        littleEndian_fieldBytes]
      refine BitVec.eq_of_toNat_eq ?_
      have hlt := crc32.isLt
      rw [BitVec.toNat_ofNat]
      omega
  · rintro ⟨hlength, hzero, rfl⟩
    have htake : rest.take padding = List.replicate padding 0 :=
      List.eq_replicate_iff.mpr ⟨by rw [List.length_take]; omega, hzero⟩
    have hdrop : (rest.drop padding).length = 4 := by
      rw [List.length_drop]
      omega
    have hlt := littleEndian_lt (rest.drop padding)
    rw [hdrop] at hlt
    have hvalue : (BitVec.ofNat 32 (littleEndian (rest.drop padding))).toNat =
        littleEndian (rest.drop padding) := by
      rw [BitVec.toNat_ofNat]
      omega
    have hbytes := fieldBytes_littleEndian (rest.drop padding)
    rw [hdrop] at hbytes
    rw [List.take_of_length_le hdrop.le, hvalue, hbytes, ← htake, List.take_append_drop]

/-- A link is decoded from a section if it has a name and the section is its own. -/
theorem debuglinkOf_eq_ok_iff {content : List Byte} {link : GnuDebugLink} :
    debuglinkOf content = .ok link ↔ link.Named ∧ content = link.encode := by
  unfold debuglinkOf
  cases hname : terminated content with
  | none =>
    constructor
    · intro h
      dsimp only at h
      split at h <;> cases h
    · rintro ⟨hnamed, rfl⟩
      exact absurd (hname.symm.trans hnamed.terminated) nofun
  | some filename =>
    obtain ⟨hnull, rest, rfl⟩ := terminated_eq_some_iff.mp hname
    have htail : ∀ crc32, rest = (GnuDebugLink.mk filename crc32).tail ↔ _ := fun _ => eq_tail_iff
    have hpadding := debuglinkPadding_add filename.length
    have hlength : (filename ++ 0 :: rest).length = filename.length + 1 + rest.length := by
      simp only [List.length_append, List.length_cons]
      omega
    generalize debuglinkPadding filename.length = padding at hpadding htail
    have hdrop : (filename ++ 0 :: rest).drop (filename.length + 1) = rest :=
      drop_after_null filename rest 0
    dsimp only
    rw [← hpadding, Nat.add_sub_cancel_left, drop_after_null, hdrop, hlength]
    constructor
    · intro h
      split at h
      · cases h
      split at h
      · cases h
      next hvalid =>
        obtain ⟨hnonempty, hslash⟩ := not_or.mp hvalid
        split at h
        · cases h
        next hfits =>
          split at h
          · cases h
          next hnone =>
            cases h
            refine ⟨⟨hnonempty, filenameOf_eq_self_iff.mp (not_not.mp hslash), hnull⟩, ?_⟩
            have hrest := (htail _).mpr ⟨by omega, not_not.mp hnone, rfl⟩
            rw [GnuDebugLink.encode]
            exact congrArg (filename ++ 0 :: ·) hrest
    · rintro ⟨hnamed, hcontent⟩
      rw [hcontent, hnamed.terminated] at hname
      obtain rfl := Option.some.inj hname
      have hrest : rest = link.tail := by
        have hcons := List.append_cancel_left hcontent
        exact (List.cons.inj hcons).2
      obtain ⟨hrestLength, hnone, hcrc⟩ := (htail link.crc32).mp hrest
      have hself := filenameOf_eq_self_iff.mpr hnamed.noSlash
      have hpositive := List.length_pos_iff.mpr hnamed.nonempty
      rw [if_neg (by omega), if_neg (not_or.mpr ⟨hnamed.nonempty, not_not.mpr hself⟩),
        if_neg (by omega), if_neg (not_not.mpr hnone), hcrc]
      rfl

/-! ## The section -/

section Sections

variable {bytes : List Byte} {names : SectionRange bytes}

/-- The sections have names, all of which are other names. -/
def Skipped (bytes : List Byte) (names : SectionRange bytes) (headers : List SectionHeader) :
    Prop :=
  ∀ header ∈ headers,
    ∃ name, sectionName bytes names header.name = .ok name ∧ name ≠ gnuDebuglinkName

/-- The tables of the file are in order, and one of its sections is named `.gnu_debuglink`, lies in
the file and has these bytes. -/
def DebuglinkSection (bytes content : List Byte) : Prop :=
  ∃ before header after names range,
    debuglinkSections bytes = .ok (some (before ++ header :: after, names)) ∧
    Skipped bytes names before ∧ Skipped bytes names after ∧
    sectionName bytes names header.name = .ok gnuDebuglinkName ∧
    requireLineRange bytes header.offset header.size ".gnu_debuglink" = .ok range ∧
    range.content = content

/-- A round passes over a section of another name, or takes the link from the one section. -/
theorem debuglinkRound_eq_ok_iff {result next : Option GnuDebugLink} {header : SectionHeader} :
    debuglinkRound bytes names result header = .ok next ↔
      Skipped bytes names [header] ∧ next = result ∨
      sectionName bytes names header.name = .ok gnuDebuglinkName ∧ result = none ∧
        ∃ range link, requireLineRange bytes header.offset header.size ".gnu_debuglink" =
          .ok range ∧ debuglinkOf range.content = .ok link ∧ next = some link := by
  simp only [Skipped, List.mem_singleton, forall_eq]
  unfold debuglinkRound
  rw [bind_eq_ok]
  constructor
  · rintro ⟨name, hname, h⟩
    split at h
    · next hother => exact .inl ⟨⟨name, hname, hother⟩, (pure_eq_ok.mp h).symm⟩
    next hsame =>
      split at h
      · cases h
      next hnone =>
        obtain ⟨range, hrange, h⟩ := bind_eq_ok.mp h
        obtain ⟨link, hlink, h⟩ := bind_eq_ok.mp h
        exact .inr ⟨not_not.mp hsame ▸ hname, Option.not_isSome_iff_eq_none.mp hnone, range, link,
          hrange, hlink, (pure_eq_ok.mp h).symm⟩
  · rintro (⟨⟨name, hname, hother⟩, rfl⟩ | ⟨hname, rfl, range, link, hrange, hlink, rfl⟩)
    · exact ⟨name, hname, if_pos hother⟩
    · refine ⟨gnuDebuglinkName, hname, ?_⟩
      rw [if_neg (not_not.mpr rfl), if_neg (by simp), hrange, ok_bind, hlink]
      rfl

theorem skipped_cons {header : SectionHeader} {headers : List SectionHeader} :
    Skipped bytes names (header :: headers) ↔
      Skipped bytes names [header] ∧ Skipped bytes names headers := by
  simp [Skipped]

/-- After the link has been found the loop looks at the names of the other sections only. -/
theorem foldlM_debuglinkRound_some {link : GnuDebugLink} {headers : List SectionHeader}
    {next : Option GnuDebugLink} :
    headers.foldlM (debuglinkRound bytes names) (some link) = .ok next ↔
      Skipped bytes names headers ∧ next = some link := by
  induction headers with
  | nil =>
    rw [List.foldlM_nil, pure_eq_ok]
    constructor
    · rintro rfl
      exact ⟨fun _ h => absurd h List.not_mem_nil, rfl⟩
    · rintro ⟨_, rfl⟩
      rfl
  | cons header headers ih =>
    rw [List.foldlM_cons, bind_eq_ok, skipped_cons]
    constructor
    · rintro ⟨middle, hround, h⟩
      obtain ⟨hother, rfl⟩ | ⟨_, hnone, _⟩ := debuglinkRound_eq_ok_iff.mp hround
      · obtain ⟨hrest, rfl⟩ := ih.mp h
        exact ⟨⟨hother, hrest⟩, rfl⟩
      · cases hnone
    · rintro ⟨⟨hother, hrest⟩, rfl⟩
      exact ⟨some link, debuglinkRound_eq_ok_iff.mpr (.inl ⟨hother, rfl⟩), ih.mpr ⟨hrest, rfl⟩⟩

/-- The loop finds the link of the one section of the name. -/
theorem foldlM_debuglinkRound_none {link : GnuDebugLink} {headers : List SectionHeader} :
    headers.foldlM (debuglinkRound bytes names) none = .ok (some link) ↔
      ∃ before header after range, headers = before ++ header :: after ∧
        Skipped bytes names before ∧ Skipped bytes names after ∧
        sectionName bytes names header.name = .ok gnuDebuglinkName ∧
        requireLineRange bytes header.offset header.size ".gnu_debuglink" = .ok range ∧
        debuglinkOf range.content = .ok link := by
  induction headers with
  | nil =>
    rw [List.foldlM_nil, pure_eq_ok]
    constructor
    · intro h
      cases h
    · rintro ⟨before, header, after, range, hnil, _⟩
      cases before <;> cases hnil
  | cons header headers ih =>
    rw [List.foldlM_cons, bind_eq_ok]
    constructor
    · rintro ⟨middle, hround, h⟩
      obtain ⟨hother, rfl⟩ | ⟨hname, _, range, found, hrange, hfound, rfl⟩ :=
        debuglinkRound_eq_ok_iff.mp hround
      · obtain ⟨before, header', after, range, rfl, hbefore, hafter, hlink⟩ := ih.mp h
        exact ⟨header :: before, header', after, range, rfl, skipped_cons.mpr ⟨hother, hbefore⟩,
          hafter, hlink⟩
      · obtain ⟨hafter, hsome⟩ := foldlM_debuglinkRound_some.mp h
        cases hsome
        exact ⟨[], header, headers, range, rfl, fun _ h => absurd h List.not_mem_nil, hafter, hname,
          hrange, hfound⟩
    · rintro ⟨before, header', after, range, hsplit, hbefore, hafter, hname, hrange, hlink⟩
      cases before with
      | nil =>
        cases hsplit
        exact ⟨some link, debuglinkRound_eq_ok_iff.mpr
          (.inr ⟨hname, rfl, range, link, hrange, hlink, rfl⟩),
          foldlM_debuglinkRound_some.mpr ⟨hafter, rfl⟩⟩
      | cons first before =>
        cases hsplit
        obtain ⟨hother, hbefore⟩ := skipped_cons.mp hbefore
        exact ⟨none, debuglinkRound_eq_ok_iff.mpr (.inl ⟨hother, rfl⟩),
          ih.mpr ⟨before, header', after, range, rfl, hbefore, hafter, hname, hrange, hlink⟩⟩

/-- A link is read from a file if it has a name and the section of the file is its own. -/
theorem readGnuDebuglink_eq_some_iff {bytes : List Byte} {link : GnuDebugLink} :
    readGnuDebuglink bytes = .ok (some link) ↔
      link.Named ∧ DebuglinkSection bytes link.encode := by
  unfold readGnuDebuglink
  rw [bind_eq_ok]
  constructor
  · rintro ⟨tables, htables, h⟩
    cases tables with
    | none => cases h
    | some tables =>
      obtain ⟨before, header, after, range, hsplit, hbefore, hafter, hname, hrange, hlink⟩ :=
        foldlM_debuglinkRound_none.mp h
      obtain ⟨hnamed, hcontent⟩ := debuglinkOf_eq_ok_iff.mp hlink
      refine ⟨hnamed, before, header, after, tables.2, range, ?_, hbefore, hafter, hname, hrange,
        hcontent⟩
      rw [← hsplit]
      exact htables
  · rintro ⟨hnamed, before, header, after, names, range, htables, hbefore, hafter, hname, hrange,
      hcontent⟩
    refine ⟨_, htables, foldlM_debuglinkRound_none.mpr ⟨before, header, after, range, rfl, hbefore,
      hafter, hname, hrange, debuglinkOf_eq_ok_iff.mpr ⟨hnamed, hcontent⟩⟩⟩

theorem Skipped.not_mem {headers : List SectionHeader} {header : SectionHeader}
    (h : Skipped bytes names headers)
    (hname : sectionName bytes names header.name = .ok gnuDebuglinkName) : header ∉ headers := by
  intro hmem
  obtain ⟨name, hname', hother⟩ := h header hmem
  rw [hname] at hname'
  cases hname'
  exact hother rfl

/-- A file has one such section. -/
theorem DebuglinkSection.unique {bytes content content' : List Byte}
    (h : DebuglinkSection bytes content) (h' : DebuglinkSection bytes content') :
    content = content' := by
  obtain ⟨before, header, after, names, range, htables, hbefore, hafter, hname, hrange, rfl⟩ := h
  obtain ⟨before', header', after', names', range', htables', _, _, hname', hrange', rfl⟩ := h'
  rw [htables] at htables'
  obtain ⟨hheaders, rfl⟩ := Prod.mk.inj (Option.some.inj (Except.ok.inj htables'))
  have hmem : header' ∈ before ++ header :: after := by
    rw [hheaders]
    exact List.mem_append_right before' List.mem_cons_self
  obtain hmem | hmem := List.mem_append.mp hmem
  · exact absurd hmem (hbefore.not_mem hname')
  obtain rfl | hmem := List.mem_cons.mp hmem
  · rw [hrange] at hrange'
    cases hrange'
    rfl
  · exact absurd hmem (hafter.not_mem hname')

end Sections

/-! ## The check -/

/-- What the reads of an open file have put in the buffer, and whether they came to its end. -/
structure FileReads where
  buffers : List (List Byte)
  eof : Bool

def crcBit (crc : BitVec 32) : BitVec 32 := (crc >>> 1) ^^^ (0xedb88320 &&& (0 - (crc &&& 1)))

def crcByte (crc : BitVec 32) (byte : Byte) : BitVec 32 := crcBit^[8] (crc ^^^ byte.setWidth 32)

def gnuDebuglinkCrc32 (path : String) (file : Option FileReads) : Except Exception (BitVec 32) :=
  match file with
  | none => throw (.runtimeError ("failed to open debug companion: " ++ path))
  | some file =>
    let crc := file.buffers.foldl (fun crc buffer => buffer.foldl crcByte crc) 0xffffffff
    if !file.eof then throw (.runtimeError "failed to read debug companion")
    else return crc ^^^ 0xffffffff

theorem crcByte_eq : crcByte = Crc.byteStep 0xedb88320 := rfl

/-- The check of a file is that of its bytes, whatever part of them each read delivers. -/
theorem gnuDebuglinkCrc32_isCheck (path : String) (buffers : List (List Byte)) :
    ∃ crc, gnuDebuglinkCrc32 path (some ⟨buffers, true⟩) = .ok crc ∧
      Crc.IsCheck 0xedb88320 0xffffffff 0xffffffff buffers.flatten crc := by
  refine ⟨_, rfl, ?_⟩
  rw [crcByte_eq, ← List.foldl_flatten]
  exact Crc.isCheck_foldl _ _ _ _ (by decide)

/-- A section of a file is decoded to a link if the link has a name and the section is its
encoding, and nothing else is decoded; the check is the remainder of the file. -/
theorem gnuDebuglink_format :
    (∀ bytes content link, DebuglinkSection bytes content →
      (readGnuDebuglink bytes = .ok (some link) ↔ link.Named ∧ content = link.encode)) ∧
    (∀ bytes link, readGnuDebuglink bytes = .ok (some link) →
      DebuglinkSection bytes link.encode) ∧
    ∀ path buffers, ∃ crc, gnuDebuglinkCrc32 path (some ⟨buffers, true⟩) = .ok crc ∧
      Crc.IsCheck 0xedb88320 0xffffffff 0xffffffff buffers.flatten crc := by
  refine ⟨fun bytes content link hsection => ?_,
    fun bytes link h => (readGnuDebuglink_eq_some_iff.mp h).2, gnuDebuglinkCrc32_isCheck⟩
  rw [readGnuDebuglink_eq_some_iff]
  constructor
  · rintro ⟨hnamed, hencoded⟩
    exact ⟨hnamed, hsection.unique hencoded⟩
  · rintro ⟨hnamed, rfl⟩
    exact ⟨hnamed, hsection⟩

/-- A file whose first section is a debuglink. -/
def debuglinkFile (content : List Byte) : List Byte :=
  let header : List Byte := [0x7f, 0x45, 0x4c, 0x46, 2, 1, 1] ++ List.replicate 11 0 ++ [62, 0] ++
    List.replicate 20 0 ++ fieldBytes 8 64 ++ List.replicate 10 0 ++ fieldBytes 2 64 ++
    fieldBytes 2 2 ++ fieldBytes 2 1
  let sectionHeader (name offset size : Nat) : List Byte := fieldBytes 4 name ++
    List.replicate 20 0 ++ fieldBytes 8 offset ++ fieldBytes 8 size ++ List.replicate 24 0
  header ++ sectionHeader 1 208 content.length ++ sectionHeader 0 192 16 ++
    (0 :: gnuDebuglinkName ++ [0]) ++ content

def oneLink : GnuDebugLink := ⟨[0x61], 0x12345678⟩

theorem gnuDebuglink_format_oneLink :
    readGnuDebuglink (debuglinkFile oneLink.encode) = .ok (some oneLink) ∧
    ∃ crc, gnuDebuglinkCrc32 "" (some ⟨[[0x61], [0x62]], true⟩) = .ok crc ∧
      Crc.IsCheck 0xedb88320 0xffffffff 0xffffffff [0x61, 0x62] crc := by
  have hsection : DebuglinkSection (debuglinkFile oneLink.encode) oneLink.encode := by
    refine ⟨[], ⟨1, 0, 208, 8⟩, [⟨0, 0, 192, 16⟩], ⟨192, 16, by decide +kernel⟩,
      ⟨208, 8, by decide +kernel⟩, by decide +kernel, fun _ h => absurd h List.not_mem_nil, ?_,
      by decide +kernel, by decide +kernel, by decide +kernel⟩
    exact fun _ h => ⟨[], List.mem_singleton.mp h ▸ by decide +kernel, nofun⟩
  have hnamed : oneLink.Named := ⟨by decide, by decide, by decide⟩
  exact ⟨(gnuDebuglink_format.1 _ _ oneLink hsection).mpr ⟨hnamed, rfl⟩,
    gnuDebuglink_format.2.2 "" [[0x61], [0x62]]⟩

/-- The empty name is not decoded. -/
theorem not_readGnuDebuglink_encode : ¬∀ (bytes : List Byte) (link : GnuDebugLink),
    kSlash ∉ link.filename → 0 ∉ link.filename → DebuglinkSection bytes link.encode →
      readGnuDebuglink bytes = .ok (some link) := by
  intro h
  let link : GnuDebugLink := ⟨[], 0x12345678⟩
  have hsection : DebuglinkSection (debuglinkFile link.encode) link.encode := by
    refine ⟨[], ⟨1, 0, 208, 8⟩, [⟨0, 0, 192, 16⟩], ⟨192, 16, by decide +kernel⟩,
      ⟨208, 8, by decide +kernel⟩, by decide +kernel, fun _ h => absurd h List.not_mem_nil, ?_,
      by decide +kernel, by decide +kernel, by decide +kernel⟩
    exact fun _ h => ⟨[], List.mem_singleton.mp h ▸ by decide +kernel, nofun⟩
  have hread := h _ link List.not_mem_nil List.not_mem_nil hsection
  exact absurd hread (by decide +kernel)

end MiniDebugger
