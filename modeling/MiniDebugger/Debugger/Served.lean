import MiniDebugger.Debugger.Fork

/-!
# Requests that succeed

As long as no ptrace request fails of its own accord, a command fails in ptrace only at a byte that
cannot be accessed.
-/

namespace MiniDebugger

open Command

theorem Session.served_iff {s : Session} :
    s.served = true ↔ s.nextFails = false ∧ { s with faults := s.faults.tail }.served = true := by
  rcases hf : s.faults with _ | ⟨_ | errno, rest⟩ <;> simp [served, nextFails, hf]

/-- `x` keeps to that: it fails in ptrace only at a byte, and requests still to come succeed. -/
def Serves {α : Type} (x : Act α) : Prop := ∀ s : Session, s.served = true →
  wp x ⟨fun _ t => t.served = true, fun e _ => e.isPtraceError = true → e.isByteError = true,
    fun _ _ => True⟩ s

section Combinators

variable {α β : Type}

theorem Serves.pure (a : α) : Serves (pure a) := fun _ h => h

theorem Serves.view (f : Debugger → α) : Serves (view f) := fun _ h => h

theorem Serves.read (f : Session → α) : Serves (read f) := fun _ h => h

theorem Serves.modifyDebugger (f : Debugger → Debugger) : Serves (modifyDebugger f) := fun _ h => h

theorem Serves.modifyWorld (f : World → World) : Serves (Lowlevel.modifyWorld f) := fun _ h => h

theorem Serves.raise {e : Exception} (he : e.isPtraceError = true → e.isByteError = true) :
    Serves (raise e : Act α) := fun _ _ => he

theorem Serves.bind {x : Act α} {f : α → Act β} (hx : Serves x) (hf : ∀ a, Serves (f a)) :
    Serves (x >>= f) := by
  intro s h
  rw [wp_bind]
  exact wp_mono (hx s h) (fun a t ht => hf a t ht) (fun _ _ he => he) (fun _ _ _ => trivial)

theorem Serves.ite {c : Prop} [Decidable c] {x y : Act α} (hx : Serves x) (hy : Serves y) :
    Serves (if c then x else y) := by
  split
  · exact hx
  · exact hy

theorem Serves.when {c : Bool} {x : Act Unit} (hx : Serves x) : Serves (when c x) :=
  .ite hx (.pure ())

theorem Serves.forEach {f : β → Act Unit} (hf : ∀ b, Serves (f b)) : ∀ bs, Serves (forEach f bs)
  | [] => .pure ()
  | b :: bs => (hf b).bind fun _ => Serves.forEach hf bs

end Combinators

namespace Lowlevel

theorem serves_attempt (operation : String) : Serves (attempt operation) := by
  intro s h
  obtain ⟨hnext, htail⟩ := Session.served_iff.mp h
  exact wp_attempt_tail (fun _ => htail) fun hfails => absurd hnext (by simp [hfails])

theorem serves_detach (tid : Pid) : Serves (detach tid) :=
  (serves_attempt _).bind fun _ => .modifyWorld _

theorem serves_getDebugRegister (tid : Pid) (index : Nat) : Serves (getDebugRegister tid index) :=
  (serves_attempt _).bind fun _ => .read _

theorem serves_setDebugRegister (tid : Pid) (index : Nat) (value : Word) :
    Serves (setDebugRegister tid index value) :=
  (serves_attempt _).bind fun _ => .modifyWorld _

theorem serves_writeByte (tid : Pid) (address : Addr) (value : Byte) :
    Serves (writeByte tid address value) := by
  refine .bind ?_ fun current => ?_
  · exact (serves_attempt _).bind fun _ => .bind (.read _) fun memory =>
      .ite (.pure _) (.raise fun _ => rfl)
  · exact (serves_attempt _).bind fun _ => .bind (.read _) fun memory =>
      .ite (.modifyWorld _) (.raise fun _ => rfl)

end Lowlevel

open Lowlevel

theorem serves_replaceDebugSlot (tid : Pid) (dr0 dr6 dr7 : Word) :
    Serves (replaceDebugSlot tid dr0 dr6 dr7) :=
  .bind (serves_getDebugRegister _ _) fun _ =>
    .bind (serves_setDebugRegister _ _ _) fun _ =>
      .bind (serves_setDebugRegister _ _ _) fun _ =>
        .bind (serves_setDebugRegister _ _ _) fun _ => serves_setDebugRegister _ _ _

theorem serves_copyDebugSlot (parent child : Pid) : Serves (copyDebugSlot parent child) :=
  .bind (serves_getDebugRegister _ _) fun _ =>
    .bind (serves_getDebugRegister _ _) fun _ =>
      .bind (serves_getDebugRegister _ _) fun _ => serves_replaceDebugSlot _ _ _ _

theorem serves_restoreWatchpointRegisters : Serves restoreWatchpointRegisters := by
  refine .bind (.view _) fun snapshot => ?_
  cases snapshot with
  | none => exact .pure ()
  | some snapshot =>
    refine .bind (.view _) fun process => .ite (.bind (.raise ?_) fun _ => ?_) ?_
    · rintro ⟨⟩
    · exact serves_replaceDebugSlot _ _ _ _
    · exact serves_replaceDebugSlot _ _ _ _

theorem serves_writeOriginalBytes (tid : Pid) : Serves (writeOriginalBytes tid) :=
  .bind (.view _) fun _ => .forEach (fun _ => .ite (serves_writeByte _ _ _) (.pure ())) _

theorem serves_handOver (tid : Pid) {child : Pid} (hpos : 0 < child) :
    Serves (handOver tid child) := by
  refine .bind (serves_attempt _) fun _ => .bind (serves_writeOriginalBytes _) fun _ => ?_
  refine .bind (.view _) fun snapshot => .bind (.when (serves_copyDebugSlot _ _)) fun _ => ?_
  refine .bind (.when serves_restoreWatchpointRegisters) fun _ => ?_
  refine .bind (serves_detach _) fun _ => ?_
  refine .bind (fun s h => wp_tryProcess (fun p _ => h) fun e he => ?_) fun _ => ?_
  · rw [Process.adoptStoppedProcess, if_neg (not_le.mpr hpos)] at he
    cases he
  · split
    · exact .bind (.modifyDebugger _) fun _ => .modifyDebugger _
    · exact .bind (.modifyDebugger _) fun _ => .modifyDebugger _

end MiniDebugger
