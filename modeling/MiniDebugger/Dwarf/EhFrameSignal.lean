import MiniDebugger.Dwarf.EhFrame

/-!
# Signal frames

`EhFrameSignalIndex` is the second reader of `.eh_frame`: it accepts the `S` augmentation, which
marks the trampoline a signal handler returns to, and asks only whether the entry that covers an
address carries it.
-/

namespace MiniDebugger

open Std (ExtTreeMap)

structure CieMetadata where
  fdeEncoding : Nat := 0
  signalFrame : Bool := false

def unsupportedSignalEncoding : String := "unsupported signal-frame CFI pointer encoding"

/-- One character of the augmentation string: the FDE encoding and the signal mark so far. -/
def readSignalAugmentation (bytes : List Byte) (augmentationEnd : Nat)
    (found : Option Nat × Bool) (descriptor : Char) : Parse (Option Nat × Bool) :=
  match descriptor with
  | 'P' => do
    let encoding ← readScalar bytes augmentationEnd 1 "personality encoding"
    if !isPcrelIndirectSignedEncoding encoding then
      throw (.runtimeError "unsupported .eh_frame personality pointer encoding")
    let _ ← readSignedEncodedValue unsupportedSignalEncoding bytes augmentationEnd encoding
      "personality pointer"
    return found
  | 'L' => do
    let encoding ← readScalar bytes augmentationEnd 1 "LSDA encoding"
    if !isPcrelSignedEncoding encoding then
      throw (.runtimeError "unsupported .eh_frame LSDA pointer encoding")
    return found
  | 'R' => do
    let encoding ← readScalar bytes augmentationEnd 1 "FDE encoding"
    if !isPcrelSignedEncoding encoding then
      throw (.runtimeError "unsupported .eh_frame FDE pointer encoding")
    return (some encoding, found.2)
  | 'S' => return (found.1, true)
  | _ => throw (.runtimeError "unsupported .eh_frame CIE augmentation descriptor")

def parseCieMetadata (bytes : List Byte) (stop : Nat) : Parse CieMetadata := do
  let version ← readScalar bytes stop 1 "CIE version"
  if version ≠ 1 then throw (.runtimeError "only .eh_frame CIE version 1 is supported")
  let augmentation ← readCString bytes stop "CIE augmentation"
  if augmentation.head? ≠ some 'z' then
    throw (.runtimeError "only z-prefixed .eh_frame augmentation is supported")
  let _ ← readUleb bytes stop
  let _ ← readSleb bytes stop
  let _ ← readScalar bytes stop 1 "CIE return register"
  let augmentationSize ← readUleb bytes stop
  let cursor ← get
  if stop - cursor < augmentationSize.toNat then
    throw (.runtimeError "CIE augmentation extends past entry boundary")
  let augmentationEnd := cursor + augmentationSize.toNat
  let found ← augmentation.tail.foldlM (readSignalAugmentation bytes augmentationEnd) (none, false)
  match found with
  | (none, _) => throw (.runtimeError "CIE augmentation does not define an FDE pointer encoding")
  | (some fdeEncoding, signalFrame) =>
    let cursor ← get
    if cursor ≠ augmentationEnd then
      throw (.runtimeError "unexpected trailing CIE augmentation data")
    return { fdeEncoding, signalFrame }

/-- The addresses an FDE covers; unlike `readFdeRange` this does not look at its augmentation. -/
def readSignalFdeRange (bytes : List Byte) (virtualAddress : Word) (stop : Nat)
    (cie : CieMetadata) : Parse (Word × Word) := do
  let fieldVirtualAddress := virtualAddress + BitVec.ofNat 64 (← get)
  let relative ← readSignedEncodedValue unsupportedSignalEncoding bytes stop cie.fdeEncoding
    "FDE initial location"
  let initialLocation ← addSigned fieldVirtualAddress relative "FDE start"
  let signedRange ← readSignedEncodedValue unsupportedSignalEncoding bytes stop cie.fdeEncoding
    "FDE address range"
  if signedRange < 0 then throw (.runtimeError "negative FDE address range")
  if 2 ^ 64 - 1 - initialLocation.toNat < signedRange.toNat then
    throw (.runtimeError "FDE address range overflows address space")
  return (initialLocation, BitVec.ofNat 64 signedRange.toNat)

/-- The loop of `is_signal_frame` over the entries of the section. -/
def signalFrameFrom (bytes : List Byte) (virtualAddress target : Word)
    (cies : ExtTreeMap Nat CieMetadata) (entry : Nat) : Except Exception Bool :=
  if entry < bytes.length then do
    let length ← readAt bytes entry 4 ".eh_frame length"
    if length = 0 then return false
    if length = 0xffffffff then throw (.runtimeError "DWARF64 .eh_frame is unsupported")
    let content := entry + 4
    if bytes.length - content < length then
      throw (.runtimeError ".eh_frame entry extends past section boundary")
    let stop := content + length
    let (ciePointer, cursor) ← readScalar bytes stop 4 "CIE pointer" content
    if ciePointer = 0 then
      let (cie, _) ← parseCieMetadata bytes stop cursor
      signalFrameFrom bytes virtualAddress target (cies.insertIfNew entry cie) stop
    else if content < ciePointer then
      throw (.runtimeError "FDE CIE pointer underflows section")
    else
      match cies[content - ciePointer]? with
      | none => throw (.runtimeError "FDE references an unknown CIE")
      | some cie =>
        let ((initialLocation, range), _) ←
          readSignalFdeRange bytes virtualAddress stop cie cursor
        if initialLocation ≤ target ∧ target < initialLocation + range then
          return cie.signalFrame
        else signalFrameFrom bytes virtualAddress target cies stop
  else return false
termination_by bytes.length - entry

structure EhFrameSignalIndex where
  section_ : List Byte := []
  sectionVirtualAddress : Word := 0
  available : Bool := false

def EhFrameSignalIndex.isSignalFrame (index : EhFrameSignalIndex) (target : Word) :
    Except Exception Bool :=
  if !index.available then return false
  else signalFrameFrom index.section_ index.sectionVirtualAddress target ∅ 0

end MiniDebugger
