import MiniDebugger.Checks
import MiniDebugger.Core.Walkers
import MiniDebugger.Unwind.CallRows

/-!
# Memory of a snapshot

`read_snapshot_memory` reads a range byte by byte from the captured segments of a core and, where
none of its bytes is captured, from the file that the owning `NT_FILE` mapping names. A byte is
captured or not by the first segment that contains its address: a later segment that overlaps the
first is never asked.
-/

namespace MiniDebugger

open Checks

/-! ## Captured bytes -/

namespace CoreLoadSegment

/-- What `parse` checks of a segment. -/
structure Valid (bytes : List Byte) (segment : CoreLoadSegment) : Prop where
  fileSize_le : segment.fileSize.toNat ≤ segment.memorySize.toNat
  memory_lt : segment.virtualAddress.toNat + segment.memorySize.toNat < 2 ^ 64
  file_le : segment.fileOffset.toNat + segment.fileSize.toNat ≤ bytes.length

instance (segment : CoreLoadSegment) (address : Nat) : Decidable (segment.Contains address) :=
  inferInstanceAs (Decidable (_ ∧ _))

/-- The byte of an address in the file, if the segment captures it. -/
def captured (segment : CoreLoadSegment) (bytes : List Byte) (address : Word) : Option Byte :=
  if segment.Contains address.toNat ∧
      address.toNat - segment.virtualAddress.toNat < segment.fileSize.toNat then
    bytes[segment.fileOffset.toNat + (address.toNat - segment.virtualAddress.toNat)]?
  else none

end CoreLoadSegment

/-- The first segment that contains an address. -/
def owningSegment (segments : List CoreLoadSegment) (address : Word) : Option CoreLoadSegment :=
  segments.find? fun segment => segment.Contains address.toNat

/-- The byte of an address, if the first segment that contains it captures it. -/
def CoreSnapshot.heldByte (snapshot : CoreSnapshot) (address : Word) : Option Byte :=
  (owningSegment snapshot.loadSegments address).bind fun segment =>
    segment.captured snapshot.bytes address

/-- No address is in two segments. -/
def CoreSnapshot.Disjoint (snapshot : CoreSnapshot) : Prop :=
  snapshot.loadSegments.Pairwise fun left right =>
    ∀ address, ¬(left.Contains address ∧ right.Contains address)

/-- Segments in the order of their addresses are disjoint. -/
theorem CoreSnapshot.disjoint_of_ascending {snapshot : CoreSnapshot}
    (h : snapshot.loadSegments.Pairwise fun left right =>
      left.virtualAddress.toNat + left.memorySize.toNat ≤ right.virtualAddress.toNat) :
    snapshot.Disjoint :=
  h.imp fun hle address ⟨hleft, hright⟩ => by
    have := hleft.2
    have := hright.1
    omega

section Reading

variable {snapshot : CoreSnapshot} {address start stop : Word} {length : Nat}

theorem contains_of_owningSegment {segments : List CoreLoadSegment} {segment : CoreLoadSegment}
    (h : owningSegment segments address = some segment) : segment.Contains address.toNat :=
  of_decide_eq_true (List.find?_some
    (p := fun segment : CoreLoadSegment => segment.Contains address.toNat) h)

theorem mem_of_owningSegment {segments : List CoreLoadSegment} {segment : CoreLoadSegment}
    (h : owningSegment segments address = some segment) : segment ∈ segments :=
  List.mem_of_find?_eq_some h

theorem owningSegment_cons_of_contains {segment : CoreLoadSegment} {rest : List CoreLoadSegment}
    (h : segment.Contains address.toNat) :
    owningSegment (segment :: rest) address = some segment :=
  List.find?_cons_of_pos (decide_eq_true h)

theorem owningSegment_cons_of_not {segment : CoreLoadSegment} {rest : List CoreLoadSegment}
    (h : ¬segment.Contains address.toNat) :
    owningSegment (segment :: rest) address = owningSegment rest address :=
  List.find?_cons_of_neg (by simpa using h)

theorem checkedAdd_of_lt {left right : Word} (what : String)
    (h : left.toNat + right.toNat < 2 ^ 64) : checkedAdd left right what = .ok (left + right) := by
  unfold checkedAdd
  rw [if_neg (by omega)]
  rfl

/-- The reader takes the range from the first segment that contains its start, if it is captured
there to its end. -/
theorem readSegments_cases {segments : List CoreLoadSegment}
    (hvalid : ∀ segment ∈ segments, segment.Valid snapshot.bytes)
    (hfile : snapshot.bytes.length < 2 ^ 64) (hlength : 0 < length)
    (hstop : stop.toNat = start.toNat + length) :
    (∃ segment, owningSegment segments start = some segment ∧
      start.toNat - segment.virtualAddress.toNat + length ≤ segment.fileSize.toNat ∧
      snapshot.readSegments start stop length segments = .ok ((snapshot.bytes.drop
        (segment.fileOffset.toNat + (start.toNat - segment.virtualAddress.toNat))).take length)) ∨
    (∀ segment, owningSegment segments start = some segment →
      segment.fileSize.toNat < start.toNat - segment.virtualAddress.toNat + length) ∧
      ∃ what, snapshot.readSegments start stop length segments = .error (.runtimeError what) := by
  induction segments with
  | nil => exact .inr ⟨fun segment h => (nomatch h), _, rfl⟩
  | cons segment rest ih =>
    obtain ⟨hsize, hmemory, hbytes⟩ := hvalid segment List.mem_cons_self
    have hend := BitVec.toNat_add segment.virtualAddress segment.memorySize
    rw [Nat.mod_eq_of_lt hmemory] at hend
    unfold CoreSnapshot.readSegments
    rw [checkedAdd_of_lt _ hmemory, ok_bind]
    by_cases hcontains : segment.Contains start.toNat
    swap
    · have houtside : start < segment.virtualAddress ∨
          segment.virtualAddress + segment.memorySize ≤ start := by
        simp only [CoreLoadSegment.Contains, BitVec.lt_def, BitVec.le_def, hend] at hcontains ⊢
        omega
      rw [if_pos houtside, owningSegment_cons_of_not hcontains]
      exact ih fun segment h => hvalid segment (List.mem_cons_of_mem _ h)
    obtain ⟨hlow, hhigh⟩ := hcontains
    have hinside : ¬(start < segment.virtualAddress ∨
        segment.virtualAddress + segment.memorySize ≤ start) := by
      simp only [BitVec.lt_def, BitVec.le_def, hend]
      omega
    rw [if_neg hinside, owningSegment_cons_of_contains ⟨hlow, hhigh⟩]
    have hfail : segment.fileSize.toNat < start.toNat - segment.virtualAddress.toNat + length →
        ∀ found, some segment = some found →
          found.fileSize.toNat < start.toNat - found.virtualAddress.toNat + length := by
      rintro h found ⟨⟩
      exact h
    by_cases hspans : segment.virtualAddress + segment.memorySize < stop
    · rw [if_pos hspans]
      refine .inr ⟨hfail ?_, _, rfl⟩
      rw [BitVec.lt_def, hend] at hspans
      omega
    rw [if_neg hspans, checkedAdd_of_lt _ (by omega), ok_bind]
    have hcaptured := BitVec.toNat_add segment.virtualAddress segment.fileSize
    rw [Nat.mod_eq_of_lt (by omega)] at hcaptured
    by_cases homitted : segment.virtualAddress + segment.fileSize < stop
    · rw [if_pos homitted]
      refine .inr ⟨hfail ?_, _, rfl⟩
      rw [BitVec.lt_def, hcaptured] at homitted
      omega
    rw [BitVec.lt_def, hcaptured] at homitted
    have hdelta : (start - segment.virtualAddress).toNat =
        start.toNat - segment.virtualAddress.toNat := BitVec.toNat_sub_of_le hlow
    have hoffset := BitVec.toNat_add segment.fileOffset (start - segment.virtualAddress)
    rw [hdelta, Nat.mod_eq_of_lt (by omega)] at hoffset
    rw [if_neg (by rw [BitVec.lt_def, hcaptured]; exact homitted),
      checkedAdd_of_lt _ (by omega), ok_bind, hoffset, if_neg (by omega)]
    exact .inl ⟨segment, rfl, by omega, rfl⟩

/-- What `read_memory` finds, in the words of `readSegments_cases`. -/
theorem readMemory_cases (hvalid : ∀ segment ∈ snapshot.loadSegments, segment.Valid snapshot.bytes)
    (hfile : snapshot.bytes.length < 2 ^ 64) (hlength : 0 < length)
    (hrange : address.toNat + length < 2 ^ 64) :
    (∃ segment, owningSegment snapshot.loadSegments address = some segment ∧
      address.toNat - segment.virtualAddress.toNat + length ≤ segment.fileSize.toNat ∧
      snapshot.readMemory address length = .ok ((snapshot.bytes.drop
        (segment.fileOffset.toNat +
          (address.toNat - segment.virtualAddress.toNat))).take length)) ∨
    (∀ segment, owningSegment snapshot.loadSegments address = some segment →
      segment.fileSize.toNat < address.toNat - segment.virtualAddress.toNat + length) ∧
      ∃ what, snapshot.readMemory address length = .error (.runtimeError what) := by
  have hsize : (BitVec.ofNat 64 length).toNat = length := Nat.mod_eq_of_lt (by omega)
  have hstop : (address + BitVec.ofNat 64 length).toNat = address.toNat + length := by
    rw [BitVec.toNat_add, hsize, Nat.mod_eq_of_lt hrange]
  have hread : snapshot.readMemory address length = snapshot.readSegments address
      (address + BitVec.ofNat 64 length) length snapshot.loadSegments := by
    unfold CoreSnapshot.readMemory
    rw [if_neg (by omega), checkedAdd_of_lt _ (by rw [hsize]; exact hrange), ok_bind]
  rw [hread]
  exact readSegments_cases hvalid hfile hlength hstop

/-- The loop over the range asks of every address the first segment that contains it. -/
theorem capturedByte_eq (hvalid : ∀ segment ∈ snapshot.loadSegments, segment.Valid snapshot.bytes)
    (hfile : snapshot.bytes.length < 2 ^ 64) (hrange : address.toNat + 1 < 2 ^ 64) :
    snapshot.capturedByte address = .ok (snapshot.heldByte address) := by
  unfold CoreSnapshot.heldByte CoreSnapshot.capturedByte
  obtain ⟨segment, howner, hcaptured, hread⟩ | ⟨homitted, what, hread⟩ :=
    readMemory_cases hvalid hfile Nat.one_pos hrange
  · have hcontains := contains_of_owningSegment howner
    have hbytes := (hvalid segment (mem_of_owningSegment howner)).file_le
    have hlt : segment.fileOffset.toNat + (address.toNat - segment.virtualAddress.toNat) <
        snapshot.bytes.length := by omega
    rw [hread, howner, Option.bind_some]
    unfold CoreLoadSegment.captured
    rw [if_pos ⟨hcontains, by omega⟩, List.getElem?_eq_getElem hlt,
      List.drop_eq_getElem_cons hlt, List.take_succ_cons]
    rfl
  · rw [hread]
    cases howner : owningSegment snapshot.loadSegments address with
    | none => rfl
    | some segment =>
      rw [Option.bind_some]
      unfold CoreLoadSegment.captured
      have hsize := homitted segment howner
      rw [if_neg (by omega)]
      rfl

theorem toNat_add_ofNat {offset bound : Nat} (h : address.toNat + offset < bound)
    (hbound : bound ≤ 2 ^ 64) :
    (address + BitVec.ofNat 64 offset).toNat = address.toNat + offset := by
  have hoffset : (BitVec.ofNat 64 offset).toNat = offset := Nat.mod_eq_of_lt (by omega)
  rw [BitVec.toNat_add, hoffset, Nat.mod_eq_of_lt (by omega)]

/-- The byte that `read_snapshot_memory` takes from the core. -/
def CoreSnapshot.byteAt (snapshot : CoreSnapshot) (address : Word) : Option Byte :=
  (snapshot.capturedByte address).toOption.join

theorem byteAt_eq (hvalid : ∀ segment ∈ snapshot.loadSegments, segment.Valid snapshot.bytes)
    (hfile : snapshot.bytes.length < 2 ^ 64) (hrange : address.toNat + length < 2 ^ 64)
    {index : Nat} (hindex : index < length) : snapshot.byteAt (address + BitVec.ofNat 64 index) =
      snapshot.heldByte (address + BitVec.ofNat 64 index) := by
  have hlt : (address + BitVec.ofNat 64 index).toNat + 1 < 2 ^ 64 := by
    rw [toNat_add_ofNat (by omega) le_rfl]
    omega
  simp [CoreSnapshot.byteAt, capturedByte_eq hvalid hfile hlt, Except.toOption]

/-- In disjoint segments an address is owned by any segment that contains it. -/
theorem owningSegment_of_disjoint {segments : List CoreLoadSegment} {segment : CoreLoadSegment}
    (hdisjoint : segments.Pairwise fun left right =>
      ∀ address, ¬(left.Contains address ∧ right.Contains address))
    (hmem : segment ∈ segments) (hcontains : segment.Contains address.toNat) :
    owningSegment segments address = some segment := by
  induction segments with
  | nil => cases hmem
  | cons first rest ih =>
    obtain ⟨hfirst, hrest⟩ := List.pairwise_cons.mp hdisjoint
    obtain rfl | hmem := List.mem_cons.mp hmem
    · exact owningSegment_cons_of_contains hcontains
    · have hnot : ¬first.Contains address.toNat := fun h =>
        hfirst segment hmem address.toNat ⟨h, hcontains⟩
      rw [owningSegment_cons_of_not hnot]
      exact ih hrest hmem

/-- What the first of disjoint segments does not capture no segment does. -/
theorem captured_of_disjoint (hdisjoint : snapshot.Disjoint)
    (h : snapshot.heldByte address = none) :
    ∀ segment ∈ snapshot.loadSegments, segment.captured snapshot.bytes address = none := by
  intro segment hmem
  by_cases hcontains : segment.Contains address.toNat
  · unfold CoreSnapshot.heldByte at h
    rwa [owningSegment_of_disjoint hdisjoint hmem hcontains, Option.bind_some] at h
  · unfold CoreLoadSegment.captured
    rw [if_neg fun h => hcontains h.1]

end Reading

/-! ## Segments of a parsed core -/

section Parsed

variable {bytes : List Byte}

/-- What no note and no segment changes holds of what `parse` has read. -/
theorem parseNotesFrom_invariant {σ : Type} {visit : NoteVisitor σ} {I : σ → Prop}
    (hvisit : ∀ state note state', I state → visit state note = .ok state' → I state')
    {stop cursor : Nat} {state state' : σ} (hstate : I state)
    (h : parseNotesFrom bytes visit stop cursor state = .ok state') : I state' := by
  induction hroom : stop - cursor using Nat.strong_induction_on generalizing cursor state with
  | _ room ih =>
    subst hroom
    rw [parseNotesFrom] at h
    split at h
    · next hlt =>
      simp only [throw_bind, ite_throw_eq_ok] at h
      obtain ⟨_, h⟩ := h
      obtain ⟨note, _, h⟩ := bind_eq_ok.mp h
      obtain ⟨namePadded, _, h⟩ := bind_eq_ok.mp h
      obtain ⟨_, h⟩ := ite_throw_eq_ok.mp h
      obtain ⟨owner, _, h⟩ := bind_eq_ok.mp h
      obtain ⟨descPadded, _, h⟩ := bind_eq_ok.mp h
      obtain ⟨_, h⟩ := ite_throw_eq_ok.mp h
      obtain ⟨state'', hvisited, h⟩ := bind_eq_ok.mp h
      refine ih _ ?_ (hvisit _ _ _ hstate hvisited) h rfl
      simp only [Elf64Nhdr.size]
      omega
    · obtain rfl := pure_eq_ok.mp h
      exact hstate

theorem parseSegments_invariant {σ : Type} {header : Elf64Ehdr}
    {onLoad : σ → Elf64Phdr → Except Exception σ} {visit : NoteVisitor σ} {sort : σ → σ}
    {I : σ → Prop}
    (hload : ∀ state data state', I state →
      onLoad state (Elf64Phdr.decode data) = .ok state' → I state')
    (hvisit : ∀ state note state', I state → visit state note = .ok state' → I state')
    (hsort : ∀ state, I state → I (sort state)) {state state' : σ} (hstate : I state)
    (h : parseSegments bytes header onLoad visit sort state = .ok state') : I state' := by
  refine foldlM_invariant hstate (fun state index state' hstate h => ?_) h
  unfold parseSegment at h
  obtain ⟨phdr, hphdr, h⟩ := bind_eq_ok.mp h
  obtain ⟨data, _, rfl⟩ := map_eq_ok.mp hphdr
  split at h
  · exact hload _ _ _ hstate h
  · split at h
    · obtain ⟨_, _, h⟩ := bind_eq_ok.mp h
      obtain ⟨visited, hvisited, h⟩ := bind_eq_ok.mp h
      obtain rfl := pure_eq_ok.mp h
      unfold parseNotes at hvisited
      obtain ⟨stop, _, hvisited⟩ := bind_eq_ok.mp hvisited
      exact hsort _ (parseNotesFrom_invariant hvisit hstate hvisited)
    · obtain rfl := pure_eq_ok.mp h
      exact hstate

/-- `core'` differs from `core` in what its notes say only. -/
def ParsedCore.SameMemory (core core' : ParsedCore) : Prop :=
  core'.bytes = core.bytes ∧ core'.loadSegments = core.loadSegments

theorem parsePrstatus_sameMemory {core core' : ParsedCore} {note : CoreNote}
    (h : parsePrstatus bytes core note = .ok core') : core.SameMemory core' := by
  unfold parsePrstatus at h
  split at h
  · cases h
  · obtain ⟨status, _, h⟩ := bind_eq_ok.mp h
    dsimp only at h
    split at h
    · cases h
    · split at h
      · cases h
      · split at h <;>
        · obtain rfl := pure_eq_ok.mp h
          exact ⟨rfl, rfl⟩

theorem parsePrpsinfo_sameMemory {core core' : ParsedCore} {note : CoreNote}
    (h : parsePrpsinfo bytes core note = .ok core') : core.SameMemory core' := by
  unfold parsePrpsinfo at h
  simp only [throw_bind, ite_throw_eq_ok] at h
  obtain ⟨_, _, h⟩ := h
  obtain ⟨process, _, h⟩ := bind_eq_ok.mp h
  obtain rfl := pure_eq_ok.mp h
  exact ⟨rfl, rfl⟩

theorem parseSiginfo_sameMemory {core core' : ParsedCore} {note : CoreNote}
    (h : parseSiginfo bytes core note = .ok core') : core.SameMemory core' := by
  unfold parseSiginfo at h
  simp only [throw_bind, ite_throw_eq_ok] at h
  obtain ⟨_, _, h⟩ := h
  obtain ⟨info, _, h⟩ := bind_eq_ok.mp h
  obtain ⟨_, h⟩ := ite_throw_eq_ok.mp h
  obtain rfl := pure_eq_ok.mp h
  exact ⟨rfl, rfl⟩

theorem parseNote_sameMemory {core core' : ParsedCore} {note : CoreNote}
    (h : parseNote bytes core note = .ok core') : core.SameMemory core' := by
  have hkept : (pure core : Except Exception ParsedCore) = .ok core' → core.SameMemory core' := by
    intro h
    obtain rfl := pure_eq_ok.mp h
    exact ⟨rfl, rfl⟩
  unfold parseNote at h
  split at h
  · exact hkept h
  split at h
  · exact parsePrstatus_sameMemory h
  split at h
  · exact parsePrpsinfo_sameMemory h
  split at h
  · exact parseSiginfo_sameMemory h
  split at h
  · exact hkept h
  split at h
  · cases h
  · obtain ⟨mappings, _, h⟩ := bind_eq_ok.mp h
    obtain rfl := pure_eq_ok.mp h
    exact ⟨rfl, rfl⟩

theorem parseLoad_valid {core core' : ParsedCore} {data : List Byte}
    (hvalid : ∀ segment ∈ core.loadSegments, segment.Valid bytes)
    (h : parseLoad bytes core (Elf64Phdr.decode data) = .ok core') :
    core'.bytes = core.bytes ∧ ∀ segment ∈ core'.loadSegments, segment.Valid bytes := by
  unfold parseLoad at h
  simp only [throw_bind, ite_throw_eq_ok] at h
  obtain ⟨hsize, h⟩ := h
  obtain ⟨_, hsum, h⟩ := bind_eq_ok.mp h
  obtain ⟨_, hrange, h⟩ := bind_eq_ok.mp h
  obtain rfl := pure_eq_ok.mp h
  refine ⟨rfl, fun segment hsegment => ?_⟩
  obtain hold | hnew := List.mem_append.mp hsegment
  · exact hvalid segment hold
  · obtain rfl := List.mem_singleton.mp hnew
    have haddress : (Elf64Phdr.decode data).vaddr < 2 ^ 64 := field_lt data 16 8
    have hmemory : (Elf64Phdr.decode data).vaddr + (Elf64Phdr.decode data).memsz < 2 ^ 64 := by
      unfold checkedSum at hsum
      split at hsum
      · cases hsum
      · omega
    have hoffset : (Elf64Phdr.decode data).offset < 2 ^ 64 := field_lt data 8 8
    have hbound := requireRange_bound hrange
    constructor
    · simp only [BitVec.toNat_ofNat]
      rw [Nat.mod_eq_of_lt (by omega), Nat.mod_eq_of_lt (by omega)]
      omega
    · simp only [BitVec.toNat_ofNat]
      rw [Nat.mod_eq_of_lt (by omega), Nat.mod_eq_of_lt (by omega)]
      exact hmemory
    · simp only [BitVec.toNat_ofNat]
      rw [Nat.mod_eq_of_lt (by omega), Nat.mod_eq_of_lt (by omega)]
      exact hbound

/-- The segments of a parsed core are valid. -/
theorem valid_of_parse {core : ParsedCore} (h : CoreSnapshot.parse bytes = .ok core) :
    core.bytes = bytes ∧ ∀ segment ∈ core.loadSegments, segment.Valid bytes := by
  unfold CoreSnapshot.parse at h
  obtain ⟨header, _, h⟩ := bind_eq_ok.mp h
  obtain ⟨core', hsegments, h⟩ := bind_eq_ok.mp h
  obtain ⟨_, _, h⟩ := bind_eq_ok.mp h
  obtain rfl := pure_eq_ok.mp h
  refine parseSegments_invariant (I := fun core : ParsedCore =>
      core.bytes = bytes ∧ ∀ segment ∈ core.loadSegments, segment.Valid bytes)
    ?_ ?_ ?_ ⟨rfl, by simp [ParsedCore.initial]⟩ hsegments
  · intro core data core' hcore hload
    obtain ⟨hbytes, hvalid⟩ := parseLoad_valid hcore.2 hload
    exact ⟨hbytes.trans hcore.1, hvalid⟩
  · intro core note core' hcore hnote
    obtain ⟨hbytes, hsegments⟩ := parseNote_sameMemory hnote
    exact ⟨hbytes.trans hcore.1, hsegments ▸ hcore.2⟩
  · exact fun core hcore => hcore

end Parsed

/-! ## Provenance -/

/-- Every byte of what was read is the captured one. -/
def SnapshotMemoryRead.FromCore (read : SnapshotMemoryRead) (snapshot : CoreSnapshot)
    (address : Word) (length : Nat) : Prop :=
  read.provenance = .core ∧ ∀ index < length, ∃ byte, read.bytes[index]? = some byte ∧
    snapshot.heldByte (address + BitVec.ofNat 64 index) = some byte

/-- Every byte of what was read is that of the file behind the one mapping that holds the range, of
which nothing is captured. -/
structure SnapshotMemoryRead.FromArtifact (read : SnapshotMemoryRead) (snapshot : CoreSnapshot)
    (files : Files) (artifact : String → Option (List Byte)) (address : Word) (length : Nat) :
    Prop where
  provenance : read.provenance = .runtimeArtifact
  omitted : ∀ index < length, snapshot.heldByte (address + BitVec.ofNat 64 index) = none
  mapping : ∃ mapping ∈ snapshot.fileMappings, mapping.start.toNat ≤ address.toNat ∧
    address.toNat + length ≤ mapping.stop.toNat ∧ mapping.path = read.modulePath ∧
    read.artifactFileOffset.toNat =
      mapping.fileOffset.toNat + (address.toNat - mapping.start.toNat)
  file : files.resolve read.modulePath = .ok read.moduleFilePath ∧
    ∃ file, artifact read.moduleFilePath = some file ∧ ∀ index < length, ∃ byte,
      read.bytes[index]? = some byte ∧
      file[read.artifactFileOffset.toNat + index]? = some byte

section Provenance

variable {snapshot : CoreSnapshot} {files : Files} {artifact : String → Option (List Byte)}
  {address : Word} {length : Nat} {read : SnapshotMemoryRead}

theorem mappingForAddress_eq_some {mapping : CoreFileMapping}
    (h : snapshot.mappingForAddress address = some mapping) :
    mapping ∈ snapshot.fileMappings ∧ mapping.start.toNat ≤ address.toNat ∧
      address.toNat < mapping.stop.toNat := by
  unfold CoreSnapshot.mappingForAddress at h
  have hmem := List.mem_of_find?_eq_some h
  have hfound := List.find?_some h
  simp only [Bool.and_eq_true, decide_eq_true_eq, BitVec.le_def, BitVec.lt_def] at hfound
  exact ⟨(List.takeWhile_sublist _).subset hmem, hfound⟩

/-- The file range that `read_snapshot_memory` reads for a range of which nothing is captured. -/
structure ArtifactRange (snapshot : CoreSnapshot) (files : Files)
    (artifact : String → Option (List Byte)) (address : Word) (length : Nat)
    (mapping : CoreFileMapping) (moduleFilePath : String) (file : List Byte) : Prop where
  mapped : snapshot.mappingForAddress address = some mapping
  stop : address.toNat + length ≤ mapping.stop.toNat
  resolved : files.resolve mapping.path = .ok moduleFilePath
  opened : artifact moduleFilePath = some file
  start : mapping.start.toNat ≤ address.toNat
  offset : mapping.fileOffset.toNat + (address - mapping.start).toNat < 2 ^ 64
  fits : (mapping.fileOffset + (address - mapping.start)).toNat + length ≤ file.length

/-- The bytes are all captured, or none is and they are those of a file. -/
theorem readSnapshotMemory_cases
    (h : readSnapshotMemory snapshot files artifact address length = .ok read) :
    address.toNat + length < 2 ^ 64 ∧
    (((∀ index < length, (snapshot.byteAt (address + BitVec.ofNat 64 index)).isSome) ∧
      read = { bytes := (List.range length).map fun index =>
                 (snapshot.byteAt (address + BitVec.ofNat 64 index)).getD 0
               provenance := .core }) ∨
    ((∀ index < length, snapshot.byteAt (address + BitVec.ofNat 64 index) = none) ∧
      ∃ mapping moduleFilePath file,
        ArtifactRange snapshot files artifact address length mapping moduleFilePath file ∧
        read = ⟨(file.drop (mapping.fileOffset + (address - mapping.start)).toNat).take length,
          .runtimeArtifact, mapping.path, moduleFilePath,
          mapping.fileOffset + (address - mapping.start)⟩)) := by
  unfold readSnapshotMemory at h
  simp only [throw_bind, ite_throw_eq_ok] at h
  obtain ⟨hpos, _, hoverflow, h⟩ := h
  have hrange : address.toNat + length < 2 ^ 64 := by omega
  obtain ⟨bytes, hbytes, h⟩ := bind_eq_ok.mp h
  have hheld : (List.range length).map (fun index =>
      snapshot.byteAt (address + BitVec.ofNat 64 index)) = bytes := by
    rw [← List.forall₂_eq_eq_eq, List.forall₂_map_left_iff]
    exact (Checks.mapM_eq_ok.mp hbytes).imp fun index byte hbyte => by
      simp [CoreSnapshot.byteAt, hbyte, Except.toOption]
  subst hheld
  refine ⟨hrange, ?_⟩
  split at h
  · next hall =>
    obtain rfl := pure_eq_ok.mp h
    exact .inl ⟨by simpa using hall, by simp⟩
  · obtain ⟨hnone, h⟩ := ite_throw_eq_ok.mp h
    refine .inr ⟨by simpa using hnone, ?_⟩
    split at h
    · cases h
    next mapping hmapping =>
      simp only [ite_throw_eq_ok] at h
      obtain ⟨hstop, _, hoffset, h⟩ := h
      obtain ⟨moduleFilePath, hresolve, h⟩ := bind_eq_ok.mp h
      split at h
      · cases h
      next file hartifact =>
        obtain ⟨hbound, h⟩ := ite_throw_eq_ok.mp h
        obtain rfl := pure_eq_ok.mp h
        rw [BitVec.lt_def, toNat_add_ofNat hrange le_rfl] at hstop
        exact ⟨mapping, moduleFilePath, file, ⟨hmapping, by omega, hresolve, hartifact,
          (mappingForAddress_eq_some hmapping).2.1, by omega, by omega⟩, rfl⟩

/-- What is read comes from one place. -/
theorem from_of_readSnapshotMemory
    (hvalid : ∀ segment ∈ snapshot.loadSegments, segment.Valid snapshot.bytes)
    (hfile : snapshot.bytes.length < 2 ^ 64)
    (h : readSnapshotMemory snapshot files artifact address length = .ok read) :
    read.bytes.length = length ∧ (read.FromCore snapshot address length ∨
      read.FromArtifact snapshot files artifact address length) := by
  obtain ⟨hrange, ⟨hheld, rfl⟩ | ⟨homitted, mapping, moduleFilePath, file, hartifact, rfl⟩⟩ :=
    readSnapshotMemory_cases h
  · refine ⟨by simp, .inl ⟨rfl, fun index hindex => ?_⟩⟩
    obtain ⟨byte, hbyte⟩ := Option.isSome_iff_exists.mp (hheld index hindex)
    exact ⟨byte, by simp [hindex, hbyte], (byteAt_eq hvalid hfile hrange hindex).symm.trans hbyte⟩
  · have hfits := hartifact.fits
    have hsum : (mapping.fileOffset + (address - mapping.start)).toNat =
        mapping.fileOffset.toNat + (address.toNat - mapping.start.toNat) := by
      rw [BitVec.toNat_add, Nat.mod_eq_of_lt hartifact.offset,
        BitVec.toNat_sub_of_le hartifact.start]
    refine ⟨by simp only [List.length_take, List.length_drop]; omega, .inr ⟨rfl,
      fun index hindex => (byteAt_eq hvalid hfile hrange hindex).symm.trans (homitted index hindex),
      ⟨mapping, (mappingForAddress_eq_some hartifact.mapped).1, hartifact.start, hartifact.stop,
        rfl, hsum⟩, hartifact.resolved, file, hartifact.opened, fun index hindex => ?_⟩⟩
    have hposition : (mapping.fileOffset + (address - mapping.start)).toNat + index <
        file.length := by omega
    refine ⟨file[(mapping.fileOffset + (address - mapping.start)).toNat + index], ?_,
      List.getElem?_eq_getElem hposition⟩
    rw [List.getElem?_take_of_lt hindex, List.getElem?_drop, List.getElem?_eq_getElem hposition]

end Provenance

/-! ## Parts of a range -/

/-- What a read of a part of the range returns. -/
def SnapshotMemoryRead.slice (read : SnapshotMemoryRead) (offset size : Nat) : SnapshotMemoryRead :=
  { read with
    bytes := (read.bytes.drop offset).take size
    artifactFileOffset := if read.provenance = .core then read.artifactFileOffset
      else read.artifactFileOffset + BitVec.ofNat 64 offset }

section Parts

variable {snapshot : CoreSnapshot} {files : Files} {artifact : String → Option (List Byte)}
  {address : Word} {length offset size : Nat} {whole part : SnapshotMemoryRead}

/-- The mapping that holds an address also holds what lies behind the address, up to its end: an
earlier mapping that holds any of it would hold the address too. -/
theorem mappingForAddress_add {mapping : CoreFileMapping}
    (h : snapshot.mappingForAddress address = some mapping)
    (hoffset : address.toNat + offset < mapping.stop.toNat) :
    snapshot.mappingForAddress (address + BitVec.ofNat 64 offset) = some mapping := by
  have hadd := toNat_add_ofNat hoffset mapping.stop.isLt.le
  unfold CoreSnapshot.mappingForAddress at h ⊢
  generalize snapshot.fileMappings = mappings at h ⊢
  induction mappings with
  | nil => cases h
  | cons first rest ih =>
    by_cases hstart : first.start ≤ address
    swap
    · rw [List.takeWhile_cons_of_neg (by simpa using hstart)] at h
      cases h
    have hstart' : first.start ≤ address + BitVec.ofNat 64 offset := by
      rw [BitVec.le_def] at hstart ⊢
      omega
    rw [List.takeWhile_cons_of_pos (by simpa using hstart)] at h
    rw [List.takeWhile_cons_of_pos (by simpa using hstart')]
    by_cases hstop : address < first.stop
    · rw [List.find?_cons_of_pos (by simp [hstart, hstop])] at h
      obtain rfl := Option.some.inj h
      have hstop' : address + BitVec.ofNat 64 offset < first.stop := by
        rw [BitVec.lt_def]
        omega
      exact List.find?_cons_of_pos (by simp [hstart', hstop'])
    · rw [List.find?_cons_of_neg (by simp [hstop])] at h
      have hstop' : ¬address + BitVec.ofNat 64 offset < first.stop := by
        rw [BitVec.lt_def] at hstop ⊢
        omega
      rw [List.find?_cons_of_neg (by simp [hstop'])]
      exact ih h

/-- Both of two reads succeed only from one place. -/
theorem readSnapshotMemory_slice
    (hwhole : readSnapshotMemory snapshot files artifact address length = .ok whole)
    (hpart : readSnapshotMemory snapshot files artifact (address + BitVec.ofNat 64 offset) size =
      .ok part) (hpos : 0 < size) (hfit : offset + size ≤ length) :
    part = whole.slice offset size := by
  have hadd : ∀ index, address + BitVec.ofNat 64 offset + BitVec.ofNat 64 index =
      address + BitVec.ofNat 64 (offset + index) := fun index => by
    rw [BitVec.ofNat_add, BitVec.add_assoc]
  obtain ⟨hrange, hwhole⟩ := readSnapshotMemory_cases hwhole
  obtain ⟨-, hpart⟩ := readSnapshotMemory_cases hpart
  simp only [hadd] at hpart
  obtain ⟨hheld, rfl⟩ | ⟨homitted, mapping, moduleFilePath, file, hartifact, rfl⟩ := hwhole
  · obtain ⟨-, rfl⟩ | ⟨homitted, -⟩ := hpart
    · simp only [SnapshotMemoryRead.slice, SnapshotMemoryRead.mk.injEq, and_true, if_true]
      refine List.ext_getElem (by simp; omega) fun index hleft hright => ?_
      simp
    · have hbyte := hheld offset (by omega)
      have hnone := homitted 0 hpos
      rw [Nat.add_zero] at hnone
      rw [hnone] at hbyte
      cases hbyte
  · obtain ⟨hheld, -⟩ | ⟨-, mapping', moduleFilePath', file', hartifact', rfl⟩ := hpart
    · have hbyte := hheld 0 hpos
      rw [Nat.add_zero, homitted offset (by omega)] at hbyte
      cases hbyte
    have hrange' : address.toNat + offset < 2 ^ 64 := by omega
    have hmapped := mappingForAddress_add hartifact.mapped
      (by have := hartifact.stop; omega : address.toNat + offset < mapping.stop.toNat)
    obtain rfl := Option.some.inj (hmapped.symm.trans hartifact'.mapped)
    obtain rfl := Except.ok.inj (hartifact.resolved.symm.trans hartifact'.resolved)
    obtain rfl := Option.some.inj (hartifact.opened.symm.trans hartifact'.opened)
    have hstart := hartifact.start
    have hdelta : (address - mapping.start).toNat = address.toNat - mapping.start.toNat :=
      BitVec.toNat_sub_of_le hstart
    have hmoved : (address + BitVec.ofNat 64 offset - mapping.start).toNat =
        address.toNat + offset - mapping.start.toNat := by
      rw [BitVec.toNat_sub_of_le (by rw [BitVec.le_def, toNat_add_ofNat hrange' le_rfl]; omega),
        toNat_add_ofNat hrange' le_rfl]
    have hoffset : mapping.fileOffset + (address + BitVec.ofNat 64 offset - mapping.start) =
        mapping.fileOffset + (address - mapping.start) + BitVec.ofNat 64 offset := by
      rw [add_sub_right_comm, add_assoc]
    have hposition :
        (mapping.fileOffset + (address + BitVec.ofNat 64 offset - mapping.start)).toNat =
          (mapping.fileOffset + (address - mapping.start)).toNat + offset := by
      have hbefore := hartifact.offset
      have hafter := hartifact'.offset
      rw [BitVec.toNat_add, BitVec.toNat_add, Nat.mod_eq_of_lt hbefore, Nat.mod_eq_of_lt hafter]
      omega
    simp only [SnapshotMemoryRead.slice, SnapshotMemoryRead.mk.injEq, true_and]
    refine ⟨?_, by simpa using hoffset⟩
    rw [hposition, List.drop_take, List.take_take, List.drop_drop, Nat.min_eq_left (by omega)]

end Parts

/-! ## Reads of a parsed core -/

/-- What is read of a core has one provenance, and where the segments of the core are disjoint it
is the artifact only for bytes that no segment captures and it is what `read_memory` reads. -/
theorem readSnapshotMemory_homogeneous {bytes : List Byte} {core : ParsedCore}
    (hcore : CoreSnapshot.parse bytes = .ok core) (hsize : bytes.length < 2 ^ 64)
    (files : Files) (artifact : String → Option (List Byte)) (address : Word) {length : Nat}
    (hpos : 1 ≤ length) (hmax : length ≤ 4096) :
    (∀ read, readSnapshotMemory core.toCoreSnapshot files artifact address length = .ok read →
      read.bytes.length = length ∧ (read.FromCore core.toCoreSnapshot address length ∨
        read.FromArtifact core.toCoreSnapshot files artifact address length)) ∧
    (core.Disjoint →
      (∀ read, readSnapshotMemory core.toCoreSnapshot files artifact address length = .ok read →
        read.provenance = .runtimeArtifact → ∀ index < length, ∀ segment ∈ core.loadSegments,
          segment.captured core.bytes (address + BitVec.ofNat 64 index) = none) ∧
      ∀ data, core.readMemory address length = .ok data →
        ∃ read, readSnapshotMemory core.toCoreSnapshot files artifact address length = .ok read ∧
          read.bytes = data) := by
  obtain ⟨rfl, hvalid⟩ := valid_of_parse hcore
  have hfrom : ∀ read,
      readSnapshotMemory core.toCoreSnapshot files artifact address length = .ok read →
      read.bytes.length = length ∧ (read.FromCore core.toCoreSnapshot address length ∨
        read.FromArtifact core.toCoreSnapshot files artifact address length) :=
    fun read => from_of_readSnapshotMemory hvalid hsize
  refine ⟨hfrom, fun hdisjoint => ⟨?_, ?_⟩⟩
  · intro read hread hprovenance index hindex
    obtain ⟨_, hcoreBytes | hartifact⟩ := hfrom read hread
    · cases hcoreBytes.1.symm.trans hprovenance
    · exact captured_of_disjoint hdisjoint (hartifact.omitted index hindex)
  · intro data hdata
    have hregular : core.Regular := ⟨hdisjoint, hsize.le⟩
    have hmemory : frameBaseMemory core.toCoreSnapshot files artifact address length = .ok data :=
      frameBaseMemory_of_readMemory hregular (by omega) hmax hdata
    obtain ⟨read, hread, hbytes⟩ := bind_eq_ok.mp hmemory
    exact ⟨read, hread, pure_eq_ok.mp hbytes⟩

/-- `/a` holds one page. -/
def onePage (path : String) : Option (List Byte) :=
  if path = "/a" then some (List.replicate 4096 0x2a) else none

/-- The core of one thread with two segments: the one at `0x1000` captures nothing, the other
captures its 64 bytes. -/
def twoSegmentCore (second : Nat) : List Byte :=
  structBytes Elf64Ehdr.size [(0, elfMagic ++ [2, 1, 1]), (16, littleBytes 2 etCore),
    (18, littleBytes 2 emX86_64), (20, littleBytes 4 1), (32, littleBytes 8 64),
    (54, littleBytes 2 56), (56, littleBytes 2 3)] ++
  structBytes Elf64Phdr.size [(0, littleBytes 4 ptNote), (8, littleBytes 8 232),
    (32, littleBytes 8 oneThreadNotes.length)] ++
  structBytes Elf64Phdr.size [(0, littleBytes 4 ptLoad), (16, littleBytes 8 0x1000),
    (40, littleBytes 8 0x1000)] ++
  structBytes Elf64Phdr.size [(0, littleBytes 4 ptLoad), (16, littleBytes 8 second),
    (32, littleBytes 8 64), (40, littleBytes 8 64)] ++
  oneThreadNotes

/-- One read of a core whose segments are apart comes from the core, the other from `/a`. -/
theorem readSnapshotMemory_twoSegments : ∃ core captured omitted,
    CoreSnapshot.parse (twoSegmentCore 0x7000) = .ok core ∧
    readSnapshotMemory core.toCoreSnapshot rowsFiles onePage 0x7000 16 = .ok captured ∧
    captured.FromCore core.toCoreSnapshot 0x7000 16 ∧
    core.readMemory 0x7000 16 = .ok captured.bytes ∧
    readSnapshotMemory core.toCoreSnapshot rowsFiles onePage 0x1000 16 = .ok omitted ∧
    omitted.FromArtifact core.toCoreSnapshot rowsFiles onePage 0x1000 16 ∧
    ∀ index < 16, ∀ segment ∈ core.loadSegments,
      segment.captured core.bytes (0x1000 + BitVec.ofNat 64 index) = none := by
  have hcomputed : (CoreSnapshot.parse (twoSegmentCore 0x7000)).toOption.any (fun core =>
      decide (core.loadSegments.Pairwise fun left right =>
          left.virtualAddress.toNat + left.memorySize.toNat ≤ right.virtualAddress.toNat) &&
        (core.readMemory 0x7000 16).toOption.any (fun _ => true) &&
        (readSnapshotMemory core.toCoreSnapshot rowsFiles onePage 0x7000 16).toOption.any
          (fun read => read.provenance = .core) &&
        (readSnapshotMemory core.toCoreSnapshot rowsFiles onePage 0x1000 16).toOption.any
          (fun read => read.provenance = .runtimeArtifact)) = true := by
    decide +kernel
  obtain ⟨core, hcore, hcomputed⟩ := toOption_any_eq_true.mp hcomputed
  simp only [Bool.and_eq_true, decide_eq_true_eq, toOption_any_eq_true] at hcomputed
  obtain ⟨⟨⟨hascending, data, hdata, -⟩, captured, hcaptured, hcore'⟩, omitted, homitted,
    hartifact⟩ := hcomputed
  have hdisjoint := CoreSnapshot.disjoint_of_ascending hascending
  have htheorem := fun address => readSnapshotMemory_homogeneous hcore (by decide +kernel)
    rowsFiles onePage address (by decide : 1 ≤ 16) (by decide)
  obtain ⟨read, hread, rfl⟩ := ((htheorem 0x7000).2 hdisjoint).2 data hdata
  obtain rfl := Except.ok.inj (hread.symm.trans hcaptured)
  refine ⟨core, read, omitted, hcore, hcaptured, ?_, hdata, homitted, ?_,
    ((htheorem 0x1000).2 hdisjoint).1 omitted homitted hartifact⟩
  · refine ((htheorem 0x7000).1 read hread).2.resolve_right fun hfrom => ?_
    cases hcore'.symm.trans hfrom.provenance
  · refine ((htheorem 0x1000).1 omitted homitted).2.resolve_left fun hfrom => ?_
    cases hartifact.symm.trans hfrom.1

/-- The artifact is read although a segment captures the bytes. -/
theorem not_readSnapshotMemory_omitted :
    ¬∀ bytes core, CoreSnapshot.parse bytes = .ok core →
      ∀ files artifact address length read,
        readSnapshotMemory core.toCoreSnapshot files artifact address length = .ok read →
        read.provenance = .runtimeArtifact → ∀ index < length, ∀ segment ∈ core.loadSegments,
          segment.captured core.bytes (address + BitVec.ofNat 64 index) = none := by
  intro h
  have hcomputed : (CoreSnapshot.parse (twoSegmentCore 0x1000)).toOption.any (fun core =>
      (readSnapshotMemory core.toCoreSnapshot rowsFiles onePage 0x1000 1).toOption.any
          (fun read => read.provenance = .runtimeArtifact) &&
        core.loadSegments.any fun segment =>
          (segment.captured core.bytes 0x1000).isSome) = true := by
    decide +kernel
  obtain ⟨core, hcore, hcomputed⟩ := toOption_any_eq_true.mp hcomputed
  obtain ⟨hartifact, hcaptured⟩ := Bool.and_eq_true_iff.mp hcomputed
  obtain ⟨segment, hmem, hsome⟩ := List.any_eq_true.mp hcaptured
  obtain ⟨read, hread, hartifact⟩ := toOption_any_eq_true.mp hartifact
  have hnone := h _ core hcore _ _ _ _ read hread (of_decide_eq_true hartifact) 0 (by decide)
    segment hmem
  have hat : (0x1000 : Word) + BitVec.ofNat 64 0 = 0x1000 := by decide
  rw [hat] at hnone
  rw [hnone] at hsome
  cases hsome

end MiniDebugger
