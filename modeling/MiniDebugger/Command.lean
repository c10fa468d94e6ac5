import Mathlib.Order.Defs.Unbundled
import Mathlib.Logic.Relation

/-!
# Commands that return, raise or block

`Command ω ε σ` is the monad of imperative code with an exception channel and with calls that
may never come back. A raised exception keeps every state change made before it, as in C++, and
`blocked w s` records the call `w` that does not return together with the state it was made in.

`Command.wp` gives the weakest precondition of a command for a postcondition on each of the
three ways it can end; its equations are `simp` lemmas, so that straight-line code is verified
by simplification. `Within` is the rule for code whose effect is bounded by a preorder.
-/

namespace MiniDebugger

/-- How a command started in some state ends. -/
inductive Outcome (ω ε σ α : Type) where
  | returned (a : α) (s : σ)
  | raised (e : ε) (s : σ)
  | blocked (w : ω) (s : σ)

/-- The state in which a command ended. -/
def Outcome.state {ω ε σ α : Type} : Outcome ω ε σ α → σ
  | .returned _ s => s
  | .raised _ s => s
  | .blocked _ s => s

/-- The value of a command that returned. -/
def Outcome.value? {ω ε σ α : Type} : Outcome ω ε σ α → Option α
  | .returned a _ => some a
  | _ => none

theorem Outcome.eq_returned_of_value? {ω ε σ α : Type} {outcome : Outcome ω ε σ α} {a : α}
    (h : outcome.value? = some a) : outcome = .returned a outcome.state := by
  cases outcome with
  | returned b s =>
    cases h
    rfl
  | raised e s => cases h
  | blocked w s => cases h

/-- The exception of a command that raised one. -/
def Outcome.error? {ω ε σ α : Type} : Outcome ω ε σ α → Option ε
  | .raised e _ => some e
  | _ => none

theorem Outcome.eq_raised_of_error? {ω ε σ α : Type} {outcome : Outcome ω ε σ α} {e : ε}
    (h : outcome.error? = some e) : outcome = .raised e outcome.state := by
  cases outcome with
  | returned b s => cases h
  | raised e s =>
    cases h
    rfl
  | blocked w s => cases h

/-- The call in which a command blocked. -/
def Outcome.call? {ω ε σ α : Type} : Outcome ω ε σ α → Option ω
  | .blocked w _ => some w
  | _ => none

def Command (ω ε σ α : Type) : Type := σ → Outcome ω ε σ α

/-- A postcondition for each way a command can end. -/
structure Post (ω ε σ α : Type) where
  returned : α → σ → Prop
  raised : ε → σ → Prop
  blocked : ω → σ → Prop

namespace Command

variable {ω ε σ τ α β : Type}

instance : Monad (Command ω ε σ) where
  pure a := fun s => .returned a s
  bind x f := fun s => match x s with
    | .returned a t => f a t
    | .raised e t => .raised e t
    | .blocked w t => .blocked w t

theorem bind_of_returned {x : Command ω ε σ α} {f : α → Command ω ε σ β} {s t : σ} {a : α}
    (h : x s = .returned a t) : (x >>= f) s = f a t := by
  simp only [bind, h]

theorem map_of_returned {x : Command ω ε σ α} {f : α → β} {s t : σ} {a : α}
    (h : x s = .returned a t) : (f <$> x) s = .returned (f a) t := by
  simp only [Functor.map, h, Function.comp]

theorem returned_of_bind {x : Command ω ε σ α} {f : α → Command ω ε σ β} {s : σ} {b : β}
    (h : ((x >>= f) s).value? = some b) :
    ∃ a t, x s = .returned a t ∧ (f a t).value? = some b := by
  cases hx : x s with
  | returned a t =>
    rw [bind_of_returned hx] at h
    exact ⟨a, t, rfl, h⟩
  | raised e t => simp [bind, hx, Outcome.value?] at h
  | blocked w t => simp [bind, hx, Outcome.value?] at h

/-- Read a view of the state. -/
def read (f : σ → α) : Command ω ε σ α := fun s => .returned (f s) s

def update (f : σ → σ) : Command ω ε σ Unit := fun s => .returned () (f s)

def raise (e : ε) : Command ω ε σ α := fun s => .raised e s

def block (w : ω) : Command ω ε σ α := fun s => .blocked w s

/-- `try x catch e => h e`; the handler sees the state `x` left behind. -/
def handle (x : Command ω ε σ α) (h : ε → Command ω ε σ α) : Command ω ε σ α := fun s =>
  match x s with
  | .returned a t => .returned a t
  | .raised e t => h e t
  | .blocked w t => .blocked w t

/-- Return or raise what a computation without effects does. -/
def ofExcept (x : Except ε α) : Command ω ε σ α := fun s =>
  match x with
  | .ok a => .returned a s
  | .error e => .raised e s

/-- Run `x` only if `c` holds. -/
def when (c : Bool) (x : Command ω ε σ Unit) : Command ω ε σ Unit := if c then x else pure ()

/-- Run a command on a part of a larger state. -/
def zoom (get : τ → σ) (set : τ → σ → τ) (x : Command ω ε σ α) : Command ω ε τ α := fun t =>
  match x (get t) with
  | .returned a s => .returned a (set t s)
  | .raised e s => .raised e (set t s)
  | .blocked w s => .blocked w (set t s)

def forEach (f : β → Command ω ε σ Unit) : List β → Command ω ε σ Unit
  | [] => pure ()
  | b :: bs => f b >>= fun _ => forEach f bs

/-! ## Weakest preconditions -/

def wp (x : Command ω ε σ α) (Q : Post ω ε σ α) (s : σ) : Prop :=
  match x s with
  | .returned a t => Q.returned a t
  | .raised e t => Q.raised e t
  | .blocked w t => Q.blocked w t

@[simp] theorem wp_pure (a : α) (Q : Post ω ε σ α) (s : σ) :
    wp (pure a) Q s = Q.returned a s := rfl

@[simp] theorem wp_read (f : σ → α) (Q : Post ω ε σ α) (s : σ) :
    wp (read f) Q s = Q.returned (f s) s := rfl

@[simp] theorem wp_update (f : σ → σ) (Q : Post ω ε σ Unit) (s : σ) :
    wp (update f) Q s = Q.returned () (f s) := rfl

@[simp] theorem wp_raise (e : ε) (Q : Post ω ε σ α) (s : σ) :
    wp (raise e) Q s = Q.raised e s := rfl

@[simp] theorem wp_block (w : ω) (Q : Post ω ε σ α) (s : σ) :
    wp (block w) Q s = Q.blocked w s := rfl

@[simp] theorem wp_bind (x : Command ω ε σ α) (f : α → Command ω ε σ β) (Q : Post ω ε σ β)
    (s : σ) :
    wp (x >>= f) Q s = wp x ⟨fun a t => wp (f a) Q t, Q.raised, Q.blocked⟩ s := by
  simp only [wp, bind]
  cases x s <;> rfl

@[simp] theorem wp_map (f : α → β) (x : Command ω ε σ α) (Q : Post ω ε σ β) (s : σ) :
    wp (f <$> x) Q s = wp x ⟨fun a t => Q.returned (f a) t, Q.raised, Q.blocked⟩ s := by
  simp only [wp, Functor.map]
  cases x s <;> rfl

@[simp] theorem wp_handle (x : Command ω ε σ α) (h : ε → Command ω ε σ α) (Q : Post ω ε σ α)
    (s : σ) :
    wp (handle x h) Q s = wp x ⟨Q.returned, fun e t => wp (h e) Q t, Q.blocked⟩ s := by
  simp only [wp, handle]
  cases x s <;> rfl

@[simp] theorem wp_ofExcept (x : Except ε α) (Q : Post ω ε σ α) (s : σ) :
    wp (ofExcept x) Q s = match x with
      | .ok a => Q.returned a s
      | .error e => Q.raised e s := by
  cases x <;> rfl

@[simp] theorem wp_ite (c : Prop) [Decidable c] (x y : Command ω ε σ α) (Q : Post ω ε σ α)
    (s : σ) : wp (if c then x else y) Q s = if c then wp x Q s else wp y Q s := by
  split <;> rfl

@[simp] theorem wp_when (c : Bool) (x : Command ω ε σ Unit) (Q : Post ω ε σ Unit) (s : σ) :
    wp (when c x) Q s = if c then wp x Q s else Q.returned () s := by
  cases c <;> rfl

@[simp] theorem wp_zoom (get : τ → σ) (set : τ → σ → τ) (x : Command ω ε σ α)
    (Q : Post ω ε τ α) (t : τ) :
    wp (zoom get set x) Q t = wp x ⟨fun a s => Q.returned a (set t s),
      fun e s => Q.raised e (set t s), fun w s => Q.blocked w (set t s)⟩ (get t) := by
  simp only [wp, zoom]
  cases x (get t) <;> rfl

/-- Weakening a postcondition on all three channels. -/
theorem wp_mono {x : Command ω ε σ α} {Q R : Post ω ε σ α} {s : σ} (h : wp x Q s)
    (hr : ∀ a t, Q.returned a t → R.returned a t) (he : ∀ e t, Q.raised e t → R.raised e t)
    (hb : ∀ w t, Q.blocked w t → R.blocked w t) : wp x R s := by
  unfold wp at *
  cases hx : x s with
  | returned a t => rw [hx] at h; exact hr a t h
  | raised e t => rw [hx] at h; exact he e t h
  | blocked w t => rw [hx] at h; exact hb w t h

/-- Weakening a postcondition for a command whose outcome is known. -/
theorem wp_mono_eq {x : Command ω ε σ α} {Q R : Post ω ε σ α} {s : σ} (h : wp x Q s)
    (hr : ∀ a t, x s = .returned a t → Q.returned a t → R.returned a t)
    (he : ∀ e t, x s = .raised e t → Q.raised e t → R.raised e t)
    (hb : ∀ w t, x s = .blocked w t → Q.blocked w t → R.blocked w t) : wp x R s := by
  unfold wp at *
  cases hx : x s with
  | returned a t => rw [hx] at h; exact hr a t hx h
  | raised e t => rw [hx] at h; exact he e t hx h
  | blocked w t => rw [hx] at h; exact hb w t hx h

theorem wp_and {x : Command ω ε σ α} {Q R : Post ω ε σ α} {s : σ} (hq : wp x Q s)
    (hr : wp x R s) :
    wp x ⟨fun a t => Q.returned a t ∧ R.returned a t, fun e t => Q.raised e t ∧ R.raised e t,
      fun w t => Q.blocked w t ∧ R.blocked w t⟩ s := by
  unfold wp at *
  cases hx : x s <;> rw [hx] at hq hr <;> exact ⟨hq, hr⟩

theorem wp_trivial (x : Command ω ε σ α) (s : σ) :
    wp x ⟨fun _ _ => True, fun _ _ => True, fun _ _ => True⟩ s := by
  unfold wp
  cases x s <;> trivial

/-- A command that can neither raise nor block returns. -/
theorem returned_of_wp {x : Command ω ε σ α} {Q : α → σ → Prop} {s : σ}
    (h : wp x ⟨Q, fun _ _ => False, fun _ _ => False⟩ s) : ∃ a t, x s = .returned a t ∧ Q a t := by
  unfold wp at h
  cases hx : x s with
  | returned a t => rw [hx] at h; exact ⟨a, t, rfl, h⟩
  | raised e t => rw [hx] at h; exact h.elim
  | blocked w t => rw [hx] at h; exact h.elim

theorem wp_of_returned {x : Command ω ε σ α} {s t : σ} {a : α} (hx : x s = .returned a t)
    (Q : Post ω ε σ α) : wp x Q s = Q.returned a t := by
  unfold wp
  rw [hx]

theorem wp_of_raised {x : Command ω ε σ α} {s t : σ} {e : ε} (hx : x s = .raised e t)
    (Q : Post ω ε σ α) : wp x Q s = Q.raised e t := by
  unfold wp
  rw [hx]

theorem wp_returned {x : Command ω ε σ α} {Q : Post ω ε σ α} {s t : σ} {a : α} (h : wp x Q s)
    (hx : x s = .returned a t) : Q.returned a t := by
  unfold wp at h
  rwa [hx] at h

theorem wp_raised {x : Command ω ε σ α} {Q : Post ω ε σ α} {s t : σ} {e : ε} (h : wp x Q s)
    (hx : x s = .raised e t) : Q.raised e t := by
  unfold wp at h
  rwa [hx] at h

theorem wp_blocked {x : Command ω ε σ α} {Q : Post ω ε σ α} {s t : σ} {w : ω} (h : wp x Q s)
    (hx : x s = .blocked w t) : Q.blocked w t := by
  unfold wp at h
  rwa [hx] at h

/-- A loop over a list keeps an invariant that one pass of its body keeps. -/
theorem wp_forEach {f : β → Command ω ε σ Unit} {I : σ → Prop} {E : ε → σ → Prop}
    {B : ω → σ → Prop} {bs : List β}
    (step : ∀ b ∈ bs, ∀ s, I s → wp (f b) ⟨fun _ => I, E, B⟩ s) :
    ∀ s, I s → wp (forEach f bs) ⟨fun _ => I, E, B⟩ s := by
  induction bs with
  | nil => intro s hs; exact hs
  | cons b bs ih =>
    intro s hs
    rw [forEach, wp_bind]
    refine wp_mono (step b List.mem_cons_self s hs) ?_ (fun _ _ h => h) (fun _ _ h => h)
    intro _ t ht
    exact ih (fun c hc => step c (List.mem_cons_of_mem b hc)) t ht

/-- A loop whose invariant says what the passes made so far have achieved. -/
theorem wp_forEach_done {f : β → Command ω ε σ Unit} {I : List β → σ → Prop} {E : ε → σ → Prop}
    {B : ω → σ → Prop} {bs : List β}
    (step : ∀ done b rest, bs = done ++ b :: rest → ∀ s, I done s →
      wp (f b) ⟨fun _ => I (done ++ [b]), E, B⟩ s) :
    ∀ s, I [] s → wp (forEach f bs) ⟨fun _ => I bs, E, B⟩ s := by
  suffices h : ∀ rest done, bs = done ++ rest → ∀ s, I done s →
      wp (forEach f rest) ⟨fun _ => I bs, E, B⟩ s from h bs [] rfl
  intro rest
  induction rest with
  | nil =>
    intro done hbs s hs
    rw [List.append_nil] at hbs
    exact hbs ▸ hs
  | cons b rest ih =>
    intro done hbs s hs
    rw [forEach, wp_bind]
    refine wp_mono (step done b rest hbs s hs) ?_ (fun _ _ h => h) (fun _ _ h => h)
    intro _ t ht
    exact ih (done ++ [b]) (by rw [hbs, List.append_assoc]; rfl) t ht

/-! ## Effects bounded by a preorder -/

/-- `x` never blocks, raises exceptions of `E` only, and however it ends leaves a state related
by `R` to the one it was started in. -/
def Within (R : σ → σ → Prop) (E : ε → Prop) (x : Command ω ε σ α) : Prop :=
  ∀ s, wp x ⟨fun _ t => R s t, fun e t => R s t ∧ E e, fun _ _ => False⟩ s

section Within

variable {R : σ → σ → Prop} {E : ε → Prop}

theorem Within.pure [Std.Refl R] (a : α) : Within R E (pure a : Command ω ε σ α) :=
  fun s => refl_of R s

theorem Within.read [Std.Refl R] (f : σ → α) : Within R E (read f : Command ω ε σ α) :=
  fun s => refl_of R s

theorem Within.update {f : σ → σ} (h : ∀ s, R s (f s)) :
    Within R E (update f : Command ω ε σ Unit) := h

theorem Within.bind [IsTrans σ R] {x : Command ω ε σ α} {f : α → Command ω ε σ β}
    (hx : Within R E x) (hf : ∀ a, Within R E (f a)) : Within R E (x >>= f) := by
  intro s
  rw [wp_bind]
  refine wp_mono (hx s) ?_ (fun _ _ h => h) (fun _ _ h => h)
  intro a t ht
  exact wp_mono (hf a t) (fun _ _ h => trans_of R ht h) (fun _ _ h => ⟨trans_of R ht h.1, h.2⟩)
    (fun _ _ h => h)

theorem Within.when [Std.Refl R] {c : Bool} {x : Command ω ε σ Unit} (hx : Within R E x) :
    Within R E (when c x) := by
  cases c with
  | true => exact hx
  | false => exact Within.pure ()

/-- A command whose effects are bounded may be passed over: what is left to show is the
postcondition in every state within the bound. -/
theorem Within.wp {x : Command ω ε σ α} {Q : Post ω ε σ α} {s : σ} (hx : Within R E x)
    (returned : ∀ a t, R s t → Q.returned a t) (raised : ∀ e t, R s t → E e → Q.raised e t) :
    wp x Q s :=
  wp_mono (hx s) (fun a t h => returned a t h) (fun e t h => raised e t h.1 h.2)
    (fun _ _ h => h.elim)

end Within

/-! ## Invariants -/

/-- `x` keeps `I`, whether it returns or raises. -/
def Preserves (I : σ → Prop) (x : Command ω ε σ α) : Prop :=
  ∀ s, I s → wp x ⟨fun _ => I, fun _ => I, fun _ _ => True⟩ s

section Preserves

variable {I : σ → Prop}

theorem Preserves.pure (a : α) : Preserves I (pure a : Command ω ε σ α) := fun _ h => h

theorem Preserves.read (f : σ → α) : Preserves I (read f : Command ω ε σ α) := fun _ h => h

theorem Preserves.raise (e : ε) : Preserves I (raise e : Command ω ε σ α) := fun _ h => h

theorem Preserves.block (w : ω) : Preserves I (block w : Command ω ε σ α) := fun _ _ => trivial

theorem Preserves.update {f : σ → σ} (h : ∀ s, I s → I (f s)) :
    Preserves I (update f : Command ω ε σ Unit) := h

theorem Preserves.bind {x : Command ω ε σ α} {f : α → Command ω ε σ β} (hx : Preserves I x)
    (hf : ∀ a, Preserves I (f a)) : Preserves I (x >>= f) := by
  intro s hs
  rw [wp_bind]
  exact wp_mono (hx s hs) (fun a t ht => hf a t ht) (fun _ _ h => h) (fun _ _ h => h)

theorem Preserves.handle {x : Command ω ε σ α} {h : ε → Command ω ε σ α} (hx : Preserves I x)
    (hh : ∀ e, Preserves I (h e)) : Preserves I (handle x h) := by
  intro s hs
  rw [wp_handle]
  exact wp_mono (hx s hs) (fun _ _ h => h) (fun e t ht => hh e t ht) (fun _ _ h => h)

theorem Preserves.ite {c : Prop} [Decidable c] {x y : Command ω ε σ α} (hx : Preserves I x)
    (hy : Preserves I y) : Preserves I (if c then x else y) := by
  split
  · exact hx
  · exact hy

/-- `if c then throw`, then the rest. -/
theorem Preserves.check {c : Prop} [Decidable c] {e : ε} {f : β → Command ω ε σ α}
    {x : Command ω ε σ α} (hx : Preserves I x) :
    Preserves I (if c then Command.raise e >>= f else x) :=
  Preserves.ite (fun _ h => h) hx

theorem Preserves.forEach {f : β → Command ω ε σ Unit} (hf : ∀ b, Preserves I (f b)) :
    ∀ bs, Preserves I (forEach f bs)
  | [] => Preserves.pure ()
  | b :: bs => (hf b).bind fun _ => Preserves.forEach hf bs

end Preserves

end Command

end MiniDebugger
