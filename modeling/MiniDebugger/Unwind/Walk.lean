import Mathlib.Data.List.Chain

/-!
# Walking a chain of partial steps

A walk follows a partial step function from a start and keeps what it meets, for at most `n`
steps and as long as each step is accepted. `Chain step s ts` says that the steps from `s`
lead through `ts` and then end. On such a chain a walk misses nothing exactly when it accepts
every step it could take.
-/

namespace MiniDebugger

variable {σ : Type} (step : σ → Option σ) (accept : σ → σ → Prop) [DecidableRel accept]

/-- What a walk of at most `n` accepted steps meets after `s`. -/
def walk : Nat → σ → List σ
  | 0, _ => []
  | n + 1, s =>
    match step s with
    | none => []
    | some t => if accept s t then t :: walk n t else []

/-- From `s` the steps lead through `ts`, and there is no step from the last of them. -/
inductive Chain : σ → List σ → Prop
  | last {s : σ} : step s = none → Chain s []
  | next {s t : σ} {ts : List σ} : step s = some t → Chain t ts → Chain s (t :: ts)

variable {step accept}

theorem length_walk_le (n : Nat) (s : σ) : (walk step accept n s).length ≤ n := by
  induction n generalizing s with
  | zero => simp [walk]
  | succ n ih =>
    unfold walk
    split
    · simp
    · split
      · simpa using ih _
      · simp

theorem walk_of_none {s : σ} (h : step s = none) (n : Nat) : walk step accept n s = [] := by
  cases n <;> simp [walk, h]

theorem walk_of_reject {s t : σ} (h : step s = some t) (hreject : ¬accept s t) (n : Nat) :
    walk step accept n s = [] := by
  cases n <;> simp [walk, h, hreject]

theorem walk_of_accept {s t : σ} (h : step s = some t) (haccept : accept s t) (n : Nat) :
    walk step accept (n + 1) s = t :: walk step accept n t := by
  simp [walk, h, haccept]

/-- A walk takes only accepted steps. -/
theorem isChain_walk (n : Nat) (s : σ) :
    (s :: walk step accept n s).IsChain fun a b => step a = some b ∧ accept a b := by
  induction n generalizing s with
  | zero => simp [walk]
  | succ n ih =>
    unfold walk
    split
    · simp
    · next t hstep =>
      split
      · next haccept => exact List.isChain_cons_cons.mpr ⟨⟨hstep, haccept⟩, ih t⟩
      · simp

/-- A walk of fewer than `n` steps ends where there is no step that it accepts. -/
theorem walk_stops (n : Nat) (s : σ) :
    (walk step accept n s).length = n ∨
      ∀ last ∈ (s :: walk step accept n s).getLast?, ∀ t, step last = some t → ¬accept last t := by
  induction n generalizing s with
  | zero => exact .inl rfl
  | succ n ih =>
    unfold walk
    split
    · next hstep =>
      refine .inr fun last hlast t ht => ?_
      obtain rfl : s = last := by simpa using hlast
      cases hstep.symm.trans ht
    · next t hstep =>
      split
      · obtain hall | hends := ih t
        · exact .inl (by rw [List.length_cons, hall])
        · refine .inr fun last hlast => hends last ?_
          rwa [List.getLast?_cons_cons] at hlast
      · next hrejects =>
        refine .inr fun last hlast u hu => ?_
        obtain rfl : s = last := by simpa using hlast
        cases hstep.symm.trans hu
        exact hrejects

/-- A walk along a chain is a part of it. -/
theorem walk_prefix {s : σ} {ts : List σ} (h : Chain step s ts) (n : Nat) :
    walk step accept n s <+: ts := by
  induction h generalizing n with
  | last hstep => cases n <;> simp [walk, hstep]
  | next hstep _ ih =>
    cases n with
    | zero => simp [walk]
    | succ n =>
      simp only [walk, hstep]
      split
      · simpa using ih n
      · simp

/-- A walk returns the first `n` members of the chain iff it accepts each step among them. -/
theorem walk_eq_take_iff {s : σ} {ts : List σ} (h : Chain step s ts) (n : Nat) :
    walk step accept n s = ts.take n ↔ ((s :: ts).take (n + 1)).IsChain accept := by
  induction h generalizing n with
  | last hstep => cases n <;> simp [walk, hstep]
  | @next s t ts hstep _ ih =>
    cases n with
    | zero => simp [walk]
    | succ n =>
      simp only [walk, hstep, List.take_succ_cons, List.isChain_cons_cons]
      by_cases hacc : accept s t
      · simpa [hacc] using ih n
      · simp [hacc]

/-- Relations that agree on each neighbouring pair have the same chains. -/
theorem isChain_congr {R S : σ → σ → Prop} {l : List σ} (h : l.IsChain fun a b => R a b ↔ S a b) :
    l.IsChain R ↔ l.IsChain S := by
  induction h with
  | nil => simp
  | singleton => simp
  | cons_cons hab _ ih => simp only [List.isChain_cons_cons, hab, ih]

/-- The same seen through a view of the members, where the relation `R` decides which steps of
this chain the walk accepts. -/
theorem map_walk_eq_iff {τ : Type} (f : σ → τ) {R : σ → σ → Prop} {s : σ} {ts : List σ}
    (h : Chain step s ts) (hR : (s :: ts).IsChain fun a b => accept a b ↔ R a b) (n : Nat) :
    (walk step accept n s).map f = (ts.take n).map f ↔
      ((s :: ts).take (n + 1)).IsChain R := by
  rw [← isChain_congr (hR.take (n + 1)), ← walk_eq_take_iff h n]
  constructor
  · intro hmap
    have hlength : (walk step accept n s).length = (ts.take n).length := by
      simpa using congrArg List.length hmap
    -- both are the part of the chain of that length
    have hprefix : walk step accept n s <+: ts := walk_prefix h n
    have hwalk := List.prefix_iff_eq_take.mp hprefix
    rw [hwalk, hlength, List.length_take]
    exact List.take_eq_take_min.symm
  · intro heq
    rw [heq]

end MiniDebugger
