import MiniDebugger.Dwarf.EhFrameSignal

/-!
# Walking over the entries of `.eh_frame`

Both readers cut the section into entries the same way: a length, a CIE pointer and the rest. `Ends`
and `EntryAt` say what stands at an offset, and the lemmas about `evaluateFrame` and
`signalFrameFrom` say what one round of each loop makes of it.
-/

namespace MiniDebugger

open Std (ExtTreeMap)

variable {bytes : List Byte} {virtualAddress target : Word} {entry stop ciePointer : Nat}

/-- The section or its list of entries ends here. -/
def Ends (bytes : List Byte) (entry : Nat) : Prop :=
  bytes.length ≤ entry ∨ readAt bytes entry 4 ".eh_frame length" = .ok 0

/-- An entry with this CIE pointer goes from `entry` to `stop`. -/
structure EntryAt (bytes : List Byte) (entry stop ciePointer : Nat) : Prop where
  inside : entry < bytes.length
  header : readAt bytes entry 4 ".eh_frame length" = .ok (stop - (entry + 4))
  short : stop - (entry + 4) ≠ 0xffffffff
  start : entry + 4 < stop
  fits : stop ≤ bytes.length
  pointer : readScalar bytes stop 4 "CIE pointer" (entry + 4) = .ok (ciePointer, entry + 8)

theorem except_bind_ok {ε α β : Type} {x : Except ε α} {f : α → Except ε β} {b : β}
    (h : (x >>= f) = .ok b) : ∃ a, x = .ok a ∧ f a = .ok b := by
  cases x with
  | error e => cases h
  | ok a => exact ⟨a, rfl, h⟩

theorem readAt_bound {offset size value : Nat} {what : String}
    (h : readAt bytes offset size what = .ok value) : offset + size ≤ bytes.length := by
  unfold readAt at h
  split at h
  · cases h
  · omega

/-! ## Call-frame information -/

section EvaluateFrame

variable {readMemory : CfiMemoryReader} {readRegister : Word → Except Exception Word}
  {cies : ExtTreeMap Nat Cie}

/-- A CIE is parsed and remembered. -/
theorem evaluateFrame_of_cie (h : EntryAt bytes entry stop 0) :
    evaluateFrame bytes virtualAddress target readMemory readRegister cies entry = (do
      let (cie, _) ← parseCie bytes stop (entry + 8)
      evaluateFrame bytes virtualAddress target readMemory readRegister
        (cies.insertIfNew entry cie) stop) := by
  have hstart := h.start
  have hfits := h.fits
  rw [evaluateFrame, if_pos h.inside, h.header]
  dsimp only [Bind.bind, Except.bind]
  rw [if_neg (by omega), if_neg h.short, if_neg (by omega),
    show entry + 4 + (stop - (entry + 4)) = stop by omega, h.pointer]
  rfl

/-- An FDE is read with the CIE it refers to. -/
theorem evaluateFrame_of_fde {cie : Cie} (h : EntryAt bytes entry stop ciePointer)
    (hpointer : ciePointer ≠ 0) (hback : ciePointer ≤ entry + 4)
    (hcie : cies[entry + 4 - ciePointer]? = some cie) :
    evaluateFrame bytes virtualAddress target readMemory readRegister cies entry = (do
      let ((initialLocation, range), cursor) ←
        readFdeRange bytes virtualAddress stop cie (entry + 8)
      if initialLocation ≤ target ∧ target < initialLocation + range then
        let frame ← evaluateEntry bytes stop cie initialLocation target readMemory readRegister
          cursor
        return some frame
      else evaluateFrame bytes virtualAddress target readMemory readRegister cies stop) := by
  have hstart := h.start
  have hfits := h.fits
  rw [evaluateFrame, if_pos h.inside, h.header]
  dsimp only [Bind.bind, Except.bind]
  rw [if_neg (by omega), if_neg h.short, if_neg (by omega),
    show entry + 4 + (stop - (entry + 4)) = stop by omega, h.pointer]
  dsimp only
  rw [if_neg hpointer, if_neg (by omega), hcie]

/-- What stands where `evaluateFrame` does not throw. -/
theorem evaluateFrame_cases {result : Option EvaluatedFrame}
    (h : evaluateFrame bytes virtualAddress target readMemory readRegister cies entry =
      .ok result) :
    Ends bytes entry ∨ (∃ stop, EntryAt bytes entry stop 0) ∨
      ∃ stop ciePointer cie, EntryAt bytes entry stop ciePointer ∧ ciePointer ≠ 0 ∧
        ciePointer ≤ entry + 4 ∧ cies[entry + 4 - ciePointer]? = some cie := by
  rw [evaluateFrame] at h
  split at h
  case isFalse hinside => exact .inl (.inl (by omega))
  case isTrue hinside =>
    obtain ⟨length, hlength, h⟩ := except_bind_ok h
    have hbound := readAt_bound hlength
    dsimp only at h
    split at h
    case isTrue hzero => exact .inl (.inr (hzero ▸ hlength))
    case isFalse hzero =>
      split at h
      case isTrue => cases h
      case isFalse hshort =>
        split at h
        case isTrue => cases h
        case isFalse hfits =>
          obtain ⟨⟨ciePointer, cursor⟩, hpointer, h⟩ := except_bind_ok h
          have hcursor := readScalar_next hpointer
          subst hcursor
          have hentry : EntryAt bytes entry (entry + 4 + length) ciePointer :=
            ⟨hinside, by rw [hlength, Nat.add_sub_cancel_left], by omega, by omega, by omega,
              hpointer⟩
          dsimp only at h
          split at h
          case isTrue hcie => exact .inr (.inl ⟨_, hcie ▸ hentry⟩)
          case isFalse hcie =>
            split at h
            case isTrue => cases h
            case isFalse hback =>
              split at h
              case h_1 => cases h
              case h_2 cie hfound =>
                exact .inr (.inr ⟨_, _, cie, hentry, hcie, by omega, hfound⟩)

end EvaluateFrame

/-! ## Signal frames -/

section SignalFrame

variable {cies : ExtTreeMap Nat CieMetadata}

theorem signalFrameFrom_of_ends (h : Ends bytes entry) :
    signalFrameFrom bytes virtualAddress target cies entry = .ok false := by
  rw [signalFrameFrom]
  split
  case isTrue hinside =>
    rw [h.resolve_left (by omega)]
    rfl
  case isFalse => rfl

theorem signalFrameFrom_of_cie (h : EntryAt bytes entry stop 0) :
    signalFrameFrom bytes virtualAddress target cies entry = (do
      let (cie, _) ← parseCieMetadata bytes stop (entry + 8)
      signalFrameFrom bytes virtualAddress target (cies.insertIfNew entry cie) stop) := by
  have hstart := h.start
  have hfits := h.fits
  rw [signalFrameFrom, if_pos h.inside, h.header]
  dsimp only [Bind.bind, Except.bind]
  rw [if_neg (by omega), if_neg h.short, if_neg (by omega),
    show entry + 4 + (stop - (entry + 4)) = stop by omega, h.pointer]
  rfl

theorem signalFrameFrom_of_fde {cie : CieMetadata} (h : EntryAt bytes entry stop ciePointer)
    (hpointer : ciePointer ≠ 0) (hback : ciePointer ≤ entry + 4)
    (hcie : cies[entry + 4 - ciePointer]? = some cie) :
    signalFrameFrom bytes virtualAddress target cies entry = (do
      let ((initialLocation, range), _) ←
        readSignalFdeRange bytes virtualAddress stop cie (entry + 8)
      if initialLocation ≤ target ∧ target < initialLocation + range then
        return cie.signalFrame
      else signalFrameFrom bytes virtualAddress target cies stop) := by
  have hstart := h.start
  have hfits := h.fits
  rw [signalFrameFrom, if_pos h.inside, h.header]
  dsimp only [Bind.bind, Except.bind]
  rw [if_neg (by omega), if_neg h.short, if_neg (by omega),
    show entry + 4 + (stop - (entry + 4)) = stop by omega, h.pointer]
  dsimp only
  rw [if_neg hpointer, if_neg (by omega), hcie]

end SignalFrame

end MiniDebugger
