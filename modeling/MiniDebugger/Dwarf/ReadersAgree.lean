import MiniDebugger.Dwarf.Entries

/-!
# The two readers of `.eh_frame` agree

`EhFrame` and `EhFrameSignalIndex` parse the same section independently. Whatever the first one
accepts the second one accepts too, with the same pointer encodings and the same FDE ranges: the
signal index only knows one more augmentation and looks at less of an FDE. Hence the walk of
`evaluateFrame` drags the walk of `isSignalFrame` along, over entries that are never signal frames.
-/

namespace MiniDebugger

open Std (ExtTreeMap)

/-! ## One reader accepts what another accepts -/

/-- What `x` accepts `y` accepts, with the result seen through `f` and the same bytes consumed. -/
def Accepts {α β : Type} (f : α → β) (x : Parse α) (y : Parse β) : Prop :=
  ∀ cursor a next, x cursor = .ok (a, next) → y cursor = .ok (f a, next)

section Accepts

variable {α β γ δ : Type} {f : α → β} {g : γ → δ}

theorem accepts_refl (x : Parse α) : Accepts id x x := fun _ _ _ h => h

theorem accepts_pure (a : α) : Accepts f (pure a) (pure (f a)) := by
  intro cursor b next h
  cases h
  rfl

theorem accepts_throw (e : Exception) (y : Parse β) : Accepts f (throw e) y := by
  intro cursor a next h
  cases h

theorem accepts_bind {x : Parse α} {y : Parse β} {k : α → Parse γ} {l : β → Parse δ}
    (hx : Accepts f x y) (hk : ∀ a, Accepts g (k a) (l (f a))) : Accepts g (x >>= k) (y >>= l) := by
  intro cursor c next h
  obtain ⟨a, middle, hfirst, hrest⟩ := bind_ok h
  simp only [bind, StateT.bind, Except.bind, hx _ _ _ hfirst]
  exact hk a _ _ _ hrest

theorem accepts_ite {c : Prop} [Decidable c] {x x' : Parse α} {y y' : Parse β}
    (hx : Accepts f x y) (hx' : Accepts f x' y') :
    Accepts f (if c then x else x') (if c then y else y') := by
  split
  · exact hx
  · exact hx'

theorem accepts_foldlM {ι : Type} {step : α → ι → Parse α} {step' : β → ι → Parse β}
    (hstep : ∀ a i, Accepts f (step a i) (step' (f a) i)) (items : List ι) (a : α) :
    Accepts f (items.foldlM step a) (items.foldlM step' (f a)) := by
  induction items generalizing a with
  | nil => exact accepts_pure a
  | cons item items ih =>
    rw [List.foldlM_cons, List.foldlM_cons]
    exact accepts_bind (hstep a item) ih

end Accepts

theorem accepts_readSignedEncodedValue (message message' : String) (bytes : List Byte)
    (limit encoding : Nat) (what : String) :
    Accepts id (readSignedEncodedValue message bytes limit encoding what)
      (readSignedEncodedValue message' bytes limit encoding what) := by
  refine accepts_ite (accepts_refl _) (accepts_ite (accepts_refl _) (accepts_throw _ _))

/-! ## Common information entries -/

/-- What the signal index keeps of a CIE that `parseCie` accepts. -/
def Cie.metadata (cie : Cie) : CieMetadata := ⟨cie.fdeEncoding, false⟩

theorem accepts_readSignalAugmentation (bytes : List Byte) (augmentationEnd : Nat)
    (fdeEncoding : Option Nat) (descriptor : Char) :
    Accepts (fun found => (found, false)) (readAugmentation bytes augmentationEnd fdeEncoding
      descriptor) (readSignalAugmentation bytes augmentationEnd (fdeEncoding, false) descriptor) := by
  unfold readAugmentation readSignalAugmentation
  split
  case h_1 =>
    refine accepts_bind (accepts_refl _) fun encoding => ?_
    refine accepts_ite (accepts_throw _ _) ?_
    exact accepts_bind (accepts_readSignedEncodedValue _ _ _ _ _ _) fun _ => accepts_pure _
  case h_2 =>
    refine accepts_bind (accepts_refl _) fun encoding => ?_
    exact accepts_ite (accepts_throw _ _) (accepts_pure _)
  case h_3 =>
    refine accepts_bind (accepts_refl _) fun encoding => ?_
    exact accepts_ite (accepts_throw _ _) (accepts_pure _)
  case h_4 => exact accepts_throw _ _

theorem accepts_parseCieMetadata (bytes : List Byte) (stop : Nat) :
    Accepts Cie.metadata (parseCie bytes stop) (parseCieMetadata bytes stop) := by
  refine accepts_bind (accepts_refl _) fun version => ?_
  refine accepts_ite (accepts_throw _ _) ?_
  refine accepts_bind (accepts_refl _) fun augmentation => ?_
  refine accepts_ite (accepts_throw _ _) ?_
  refine accepts_bind (accepts_refl _) fun codeAlignment => ?_
  refine accepts_bind (accepts_refl _) fun dataAlignment => ?_
  refine accepts_bind (accepts_refl _) fun returnRegister => ?_
  refine accepts_bind (accepts_refl _) fun augmentationSize => ?_
  refine accepts_bind (accepts_refl _) fun cursor => ?_
  refine accepts_ite (accepts_throw _ _) ?_
  refine accepts_bind (accepts_foldlM (accepts_readSignalAugmentation _ _) _ none) fun found => ?_
  cases found with
  | none => exact accepts_throw _ _
  | some fdeEncoding =>
    refine accepts_bind (accepts_refl _) fun cursor => ?_
    exact accepts_ite (accepts_throw _ _) (accepts_pure _)

/-! ## Frame description entries -/

/-- As `Accepts`, when `y` may stop earlier than `x`. -/
def Yields {α : Type} (x y : Parse α) : Prop :=
  ∀ cursor a next, x cursor = .ok (a, next) → ∃ middle, y cursor = .ok (a, middle)

section Yields

variable {α β : Type}

theorem yields_throw (e : Exception) (y : Parse α) : Yields (throw e) y := by
  intro cursor a next h
  cases h

theorem yields_bind {x y : Parse α} {k l : α → Parse β} (hx : Accepts id x y)
    (hk : ∀ a, Yields (k a) (l a)) : Yields (x >>= k) (y >>= l) := by
  intro cursor b next h
  obtain ⟨a, middle, hfirst, hrest⟩ := bind_ok h
  simp only [bind, StateT.bind, Except.bind, hx _ _ _ hfirst]
  exact hk a _ _ _ hrest

theorem yields_ite {c : Prop} [Decidable c] {x x' y y' : Parse α} (hx : Yields x y)
    (hx' : Yields x' y') : Yields (if c then x else x') (if c then y else y') := by
  split
  · exact hx
  · exact hx'

/-- Reading on changes nothing about a result that is already there. -/
theorem yields_of_bind {x : Parse α} {y : Parse β} {k : α → Parse β} (hk : ∀ a, Yields (k a) y)
    (hy : ∃ b, y = pure b) : Yields (x >>= k) y := by
  intro cursor b next h
  obtain ⟨a, middle, -, hrest⟩ := bind_ok h
  obtain ⟨result, rfl⟩ := hy
  obtain ⟨_, hresult⟩ := hk a _ _ _ hrest
  cases hresult
  exact ⟨cursor, rfl⟩

theorem yields_pure (a : α) : Yields (pure a) (pure a) := fun _ _ _ h => ⟨_, h⟩

end Yields

/-- The signal index reads the same range; it stops before the augmentation of the FDE. -/
theorem yields_readSignalFdeRange (bytes : List Byte) (virtualAddress : Word) (stop : Nat)
    (cie : Cie) : Yields (readFdeRange bytes virtualAddress stop cie)
      (readSignalFdeRange bytes virtualAddress stop cie.metadata) := by
  refine yields_bind (accepts_refl _) fun field => ?_
  refine yields_bind (accepts_readSignedEncodedValue _ _ _ _ _ _) fun relative => ?_
  refine yields_bind (accepts_refl _) fun initialLocation => ?_
  refine yields_bind (accepts_readSignedEncodedValue _ _ _ _ _ _) fun signedRange => ?_
  refine yields_ite (yields_throw _ _) ?_
  refine yields_ite (yields_throw _ _) ?_
  refine yields_of_bind (fun augmentationSize => ?_) ⟨_, rfl⟩
  refine yields_of_bind (fun cursor => ?_) ⟨_, rfl⟩
  dsimp only
  split
  · exact yields_throw _ _
  · exact yields_of_bind (fun _ => yields_pure _) ⟨_, rfl⟩

/-! ## The walk over the entries -/

/-- The signal index knows of every CIE what `parseCie` found in it. -/
def SameCies (cies : ExtTreeMap Nat Cie) (metadata : ExtTreeMap Nat CieMetadata) : Prop :=
  ∀ offset : Nat, metadata[offset]? = cies[offset]?.map Cie.metadata

theorem SameCies.insertIfNew {cies : ExtTreeMap Nat Cie} {metadata : ExtTreeMap Nat CieMetadata}
    (h : SameCies cies metadata) (entry : Nat) (cie : Cie) :
    SameCies (cies.insertIfNew entry cie) (metadata.insertIfNew entry cie.metadata) := by
  intro offset
  have hmem : entry ∈ metadata ↔ entry ∈ cies := by
    rw [← ExtTreeMap.isSome_getElem?_iff_mem, ← ExtTreeMap.isSome_getElem?_iff_mem, h entry,
      Option.isSome_map]
  rw [ExtTreeMap.getElem?_insertIfNew, ExtTreeMap.getElem?_insertIfNew, h offset]
  simp only [hmem]
  split <;> rfl

variable {bytes : List Byte} {virtualAddress target : Word} {readMemory : CfiMemoryReader}
  {readRegister : Word → Except Exception Word}

/-- Where `evaluateFrame` gets to the end of its walk the signal index does too, and says that the
target is not in a signal frame. -/
theorem signalFrameFrom_of_evaluateFrame {cies : ExtTreeMap Nat Cie}
    {metadata : ExtTreeMap Nat CieMetadata} {entry : Nat} {result : Option EvaluatedFrame}
    (h : evaluateFrame bytes virtualAddress target readMemory readRegister cies entry = .ok result)
    (hcies : SameCies cies metadata) :
    signalFrameFrom bytes virtualAddress target metadata entry = .ok false := by
  -- by induction on the bytes left, with the tables of both walks in step
  induction hroom : bytes.length - entry using Nat.strongRecOn generalizing entry cies metadata with
  | ind room ih =>
    subst hroom
    obtain hends | ⟨stop, hentry⟩ | ⟨stop, ciePointer, cie, hentry, hpointer, hback, hcie⟩ :=
      evaluateFrame_cases h
    · exact signalFrameFrom_of_ends hends
    · rw [evaluateFrame_of_cie hentry] at h
      obtain ⟨⟨cie, next⟩, hparse, h⟩ := except_bind_ok h
      rw [signalFrameFrom_of_cie hentry, accepts_parseCieMetadata _ _ _ _ _ hparse]
      have hroom : bytes.length - stop < bytes.length - entry := by
        have := hentry.start
        have := hentry.fits
        omega
      exact ih _ hroom h (hcies.insertIfNew entry cie) rfl
    · rw [evaluateFrame_of_fde hentry hpointer hback hcie] at h
      obtain ⟨⟨⟨initialLocation, range⟩, next⟩, hrange, h⟩ := except_bind_ok h
      obtain ⟨middle, hsignal⟩ := yields_readSignalFdeRange _ _ _ _ _ _ _ hrange
      have hmetadata : metadata[entry + 4 - ciePointer]? = some cie.metadata := by
        rw [hcies, hcie, Option.map_some]
      rw [signalFrameFrom_of_fde hentry hpointer hback hmetadata, hsignal]
      dsimp only [Bind.bind, Except.bind] at h ⊢
      split
      case isTrue => rfl
      case isFalse hcover =>
        rw [if_neg hcover] at h
        have hroom : bytes.length - stop < bytes.length - entry := by
          have := hentry.start
          have := hentry.fits
          omega
        exact ih _ hroom h hcies rfl

/-- A section that gives a frame for the target has no signal frame there, and a section with a
signal frame there gives no frame but an error. -/
theorem eh_frame_readers_agree (bytes : List Byte) (virtualAddress target : Word)
    (readMemory : CfiMemoryReader) (readRegister : Word → Except Exception Word) :
    (∀ frame, evaluateFrame bytes virtualAddress target readMemory readRegister ∅ 0 =
        .ok (some frame) →
      EhFrameSignalIndex.isSignalFrame ⟨bytes, virtualAddress, true⟩ target = .ok false) ∧
    (EhFrameSignalIndex.isSignalFrame ⟨bytes, virtualAddress, true⟩ target = .ok true →
      ∃ e, evaluateFrame bytes virtualAddress target readMemory readRegister ∅ 0 = .error e) := by
  have hsame : SameCies ∅ ∅ := fun offset => by simp
  constructor
  · intro frame hframe
    exact signalFrameFrom_of_evaluateFrame hframe hsame
  · intro hsignal
    cases hframe : evaluateFrame bytes virtualAddress target readMemory readRegister ∅ 0 with
    | error e => exact ⟨e, rfl⟩
    | ok result =>
      have hfalse : EhFrameSignalIndex.isSignalFrame ⟨bytes, virtualAddress, true⟩ target =
          .ok false := signalFrameFrom_of_evaluateFrame hframe hsame
      rw [hfalse] at hsignal
      cases hsignal

/-- A CIE with augmentation `zR` or, for a trampoline, `zRS`, and an FDE for `0x1000` to `0x1100`,
at `0x2000`. -/
def frameSection (signal : Bool) : List Byte :=
  [0x14, 0, 0, 0, 0, 0, 0, 0, 1, 0x7a, 0x52] ++ (if signal then [0x53, 0] else [0]) ++
    [1, 0x78, 0x10, 1, 0x1b, 0x0c, 7, 0x10, 0x90, 1] ++ (if signal then [0] else [0, 0]) ++
    [0x10, 0, 0, 0, 0x1c, 0, 0, 0, 0xe0, 0xef, 0xff, 0xff, 0, 1, 0, 0, 0, 0, 0, 0]

/-- The plain section gives a frame and no signal frame, the trampoline the other way round. -/
theorem eh_frame_readers_agree_sections :
    (∃ frame, evaluateFrame (frameSection false) 0x2000 0x1010 (fun _ _ => .ok (.replicate 8 1))
        (fun _ => .ok 0x7000) ∅ 0 = .ok (some frame)) ∧
    EhFrameSignalIndex.isSignalFrame ⟨frameSection false, 0x2000, true⟩ 0x1010 = .ok false ∧
    EhFrameSignalIndex.isSignalFrame ⟨frameSection true, 0x2000, true⟩ 0x1010 = .ok true ∧
    ∃ e, evaluateFrame (frameSection true) 0x2000 0x1010 (fun _ _ => .ok (.replicate 8 1))
      (fun _ => .ok 0x7000) ∅ 0 = .error e := by
  have hframe : ∃ frame, evaluateFrame (frameSection false) 0x2000 0x1010
      (fun _ _ => .ok (.replicate 8 1)) (fun _ => .ok 0x7000) ∅ 0 = .ok (some frame) := by
    have hsome : (evaluateFrame (frameSection false) 0x2000 0x1010
      (fun _ _ => .ok (.replicate 8 1)) (fun _ => .ok 0x7000) ∅ 0).toOption.join.isSome = true := by
      decide +kernel
    generalize evaluateFrame _ _ _ _ _ _ _ = result at hsome
    match result, hsome with
    | .ok (some frame), _ => exact ⟨frame, rfl⟩
  have hsignal : EhFrameSignalIndex.isSignalFrame ⟨frameSection true, 0x2000, true⟩ 0x1010 =
      .ok true := by decide +kernel
  obtain ⟨frame, hframe⟩ := hframe
  exact ⟨⟨frame, hframe⟩, (eh_frame_readers_agree _ _ _ _ _).1 frame hframe, hsignal,
    (eh_frame_readers_agree _ _ _ _ _).2 hsignal⟩

end MiniDebugger
