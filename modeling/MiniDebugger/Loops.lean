import Mathlib.Tactic.Common

/-!
# Loops

A loop repeats a body on its variables until the body stops with a result. `Ends` is a run of the
loop to its end, without a bound on the rounds: a loop that ends somewhere terminates there.
-/

namespace MiniDebugger.Loop

/-- What a round of a loop comes to. -/
inductive Round (σ ρ : Type) where
  | again (next : σ)
  | stop (result : ρ)

variable {σ ρ : Type}

/-- A run of the loop from some values of its variables to its result. -/
inductive Ends (body : σ → Round σ ρ) : σ → ρ → Prop
  | stop {s : σ} {result : ρ} : body s = .stop result → Ends body s result
  | again {s next : σ} {result : ρ} : body s = .again next → Ends body next result →
    Ends body s result

/-- A loop ends in one way. -/
theorem Ends.unique {body : σ → Round σ ρ} {s : σ} {result other : ρ} (h : Ends body s result)
    (hother : Ends body s other) : result = other := by
  induction h with
  | stop hbody =>
    cases hother with
    | stop hbody' =>
      rw [hbody] at hbody'
      cases hbody'
      rfl
    | again hbody' _ =>
      rw [hbody] at hbody'
      cases hbody'
  | again hbody _ ih =>
    cases hother with
    | stop hbody' =>
      rw [hbody] at hbody'
      cases hbody'
    | again hbody' hrest =>
      rw [hbody] at hbody'
      cases hbody'
      exact ih hrest

/-! ## Rounds that go on -/

section Rounds

variable {body : σ → Round σ ρ} {R : σ → σ → Prop}

/-- The values of the variables at the beginning of some round. -/
inductive Reaches (body : σ → Round σ ρ) : σ → σ → Prop
  | here (s : σ) : Reaches body s s
  | again {s next t : σ} : body s = .again next → Reaches body next t → Reaches body s t

/-- Every round that goes on has this relation between its beginning and its end. -/
def Always (body : σ → Round σ ρ) (R : σ → σ → Prop) (s : σ) : Prop :=
  ∀ t next, Reaches body s t → body t = .again next → R t next

theorem always_of_stop {s : σ} {result : ρ} (h : body s = .stop result) : Always body R s := by
  intro t next hreach hnext
  cases hreach with
  | here => rw [h] at hnext; cases hnext
  | again hbody _ => rw [h] at hbody; cases hbody

theorem always_iff_of_again {s next : σ} (h : body s = .again next) :
    Always body R s ↔ R s next ∧ Always body R next := by
  constructor
  · intro hall
    exact ⟨hall s next (.here s) h, fun t later hreach => hall t later (.again h hreach)⟩
  · rintro ⟨hfirst, hall⟩ t later hreach hlater
    cases hreach with
    | here =>
      rw [h] at hlater
      cases hlater
      exact hfirst
    | again hbody hreach =>
      rw [h] at hbody
      cases hbody
      exact hall t later hreach hlater

end Rounds

/-! ## Measures

A loop whose rounds bring a measure of its variables down ends from everywhere.
-/

section Measure

variable {size : σ → Nat} {body : σ → Round σ ρ}

/-- A round that is not the last brings the measure down. -/
def Decreases (size : σ → Nat) (body : σ → Round σ ρ) : Prop :=
  ∀ ⦃s next⦄, body s = .again next → size next < size s

/-- The result of the loop. -/
def run (size : σ → Nat) (body : σ → Round σ ρ) (hbody : Decreases size body) (s : σ) : ρ :=
  match h : body s with
  | .stop result => result
  | .again next =>
    have := hbody h
    run size body hbody next
termination_by size s

theorem run_of_stop (hbody : Decreases size body) {s : σ} {result : ρ}
    (h : body s = .stop result) : run size body hbody s = result := by
  rw [run]
  split
  next result' hstop =>
    rw [h] at hstop
    cases hstop
    rfl
  next next hagain =>
    rw [h] at hagain
    cases hagain

theorem run_of_again (hbody : Decreases size body) {s next : σ} (h : body s = .again next) :
    run size body hbody s = run size body hbody next := by
  conv_lhs => rw [run]
  split
  next result hstop =>
    rw [h] at hstop
    cases hstop
  next next' hagain =>
    rw [h] at hagain
    cases hagain
    rfl

theorem run_ends (hbody : Decreases size body) (s : σ) :
    Ends body s (run size body hbody s) := by
  induction hsize : size s using Nat.strongRecOn generalizing s with
  | ind n ih =>
    subst hsize
    cases h : body s with
    | stop result =>
      rw [run_of_stop hbody h]
      exact .stop h
    | again next =>
      rw [run_of_again hbody h]
      exact .again h (ih _ (hbody h) next rfl)

/-- A measure that a round brings down is all a loop needs to end. -/
theorem Decreases.ends (hbody : Decreases size body) (s : σ) : ∃ result, Ends body s result :=
  ⟨_, run_ends hbody s⟩

/-- What every round keeps holds of the variables in the last round. -/
theorem Ends.invariant {I : σ → Prop} {s : σ} {result : ρ} (h : Ends body s result)
    (hstep : ∀ s next, I s → body s = .again next → I next) (hs : I s) :
    ∃ last, I last ∧ body last = .stop result := by
  induction h with
  | stop hbody => exact ⟨_, hs, hbody⟩
  | again hbody _ ih => exact ih (hstep _ _ hs hbody)

end Measure

/-! ## Scans

A scan moves a position up to a limit: each pass starts from a position below the limit, and fails or
leaves a higher one.
-/

section Scan

variable {ε : Type} {limit : Nat} {pass : σ → Nat → Except ε (σ × Nat)}

/-- A pass that succeeds moves the position on. -/
def Advances (pass : σ → Nat → Except ε (σ × Nat)) : Prop :=
  ∀ ⦃s cursor s' next⦄, pass s cursor = .ok (s', next) → cursor < next

def scan (limit : Nat) (pass : σ → Nat → Except ε (σ × Nat)) (hpass : Advances pass) (s : σ)
    (cursor : Nat) : Except ε (σ × Nat) :=
  if cursor < limit then
    match h : pass s cursor with
    | .error e => .error e
    | .ok (s', next) =>
      have := hpass h
      scan limit pass hpass s' next
  else .ok (s, cursor)
termination_by limit - cursor

/-- A round of the loop that `scan` computes. -/
def scanRound (limit : Nat) (pass : σ → Nat → Except ε (σ × Nat)) (state : σ × Nat) :
    Round (σ × Nat) (Except ε (σ × Nat)) :=
  if state.2 < limit then
    match pass state.1 state.2 with
    | .error e => .stop (.error e)
    | .ok next => .again next
  else .stop (.ok state)

theorem scanRound_of_not_lt {state : σ × Nat} (h : ¬state.2 < limit) :
    scanRound limit pass state = .stop (.ok state) := if_neg h

theorem scanRound_of_ok {state next : σ × Nat} (h : state.2 < limit)
    (hpass : pass state.1 state.2 = .ok next) : scanRound limit pass state = .again next := by
  rw [scanRound, if_pos h, hpass]

theorem scan_of_not_lt (hpass : Advances pass) (s : σ) {cursor : Nat} (h : ¬cursor < limit) :
    scan limit pass hpass s cursor = .ok (s, cursor) := by
  rw [scan, if_neg h]

theorem scan_of_error (hpass : Advances pass) {s : σ} {cursor : Nat} {e : ε} (h : cursor < limit)
    (hread : pass s cursor = .error e) : scan limit pass hpass s cursor = .error e := by
  rw [scan, if_pos h]
  split
  next e' he =>
    rw [hread] at he
    cases he
    rfl
  next s' next hok =>
    rw [hread] at hok
    cases hok

theorem scan_of_ok (hpass : Advances pass) {s s' : σ} {cursor next : Nat} (h : cursor < limit)
    (hread : pass s cursor = .ok (s', next)) :
    scan limit pass hpass s cursor = scan limit pass hpass s' next := by
  conv_lhs => rw [scan, if_pos h]
  split
  next e he =>
    rw [hread] at he
    cases he
  next s'' next' hok =>
    rw [hread] at hok
    cases hok
    rfl

/-- A scan ends. -/
theorem scan_ends (hpass : Advances pass) (s : σ) (cursor : Nat) :
    Ends (scanRound limit pass) (s, cursor) (scan limit pass hpass s cursor) := by
  induction hroom : limit - cursor using Nat.strongRecOn generalizing s cursor with
  | ind room ih =>
    subst hroom
    by_cases hlimit : cursor < limit
    · have hround : scanRound limit pass (s, cursor) =
          match pass s cursor with
          | .error e => .stop (.error e)
          | .ok next => .again next := if_pos hlimit
      cases hread : pass s cursor with
      | error e =>
        rw [hread] at hround
        rw [scan_of_error hpass hlimit hread]
        exact .stop hround
      | ok result =>
        obtain ⟨s', next⟩ := result
        rw [hread] at hround
        rw [scan_of_ok hpass hlimit hread]
        have hnext := hpass hread
        exact .again hround (ih (limit - next) (by omega) s' next rfl)
    · rw [scan_of_not_lt hpass s hlimit]
      exact .stop (if_neg hlimit)

/-- What holds of a scan without a pass, and of a pass before a scan of which it holds, holds of
every scan that succeeds. -/
theorem scan_induction (hpass : Advances pass) {motive : σ → Nat → σ → Nat → Prop}
    (done : ∀ s cursor, ¬cursor < limit → motive s cursor s cursor)
    (again : ∀ {s cursor s' next final stop}, cursor < limit → pass s cursor = .ok (s', next) →
      motive s' next final stop → motive s cursor final stop)
    {s final : σ} {cursor stop : Nat} (h : scan limit pass hpass s cursor = .ok (final, stop)) :
    motive s cursor final stop := by
  induction hroom : limit - cursor using Nat.strongRecOn generalizing s cursor with
  | ind room ih =>
    subst hroom
    by_cases hlimit : cursor < limit
    · cases hread : pass s cursor with
      | error e =>
        rw [scan_of_error hpass hlimit hread] at h
        cases h
      | ok result =>
        obtain ⟨s', next⟩ := result
        rw [scan_of_ok hpass hlimit hread] at h
        have hnext := hpass hread
        exact again hlimit hread (ih (limit - next) (by omega) h rfl)
    · rw [scan_of_not_lt hpass s hlimit] at h
      cases h
      exact done _ _ hlimit

end Scan

end MiniDebugger.Loop
