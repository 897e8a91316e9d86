/-!
# A Go `for` loop, run with fuel

`for cond(s) { s, err = body(s); if err != nil { return err } }` as a function of the loop's
state. The loop tests its condition at most `fuel` times and gives `none` when the fuel runs out
before it exits, so that a loop which never exits is a value like any other.

A proof about such a loop uses three rules. An invariant that every iteration keeps holds where
the loop exits, and at the iteration that failed. A measure that every iteration lowers bounds
the fuel the loop needs. A set of states in which the condition holds and that no iteration
leaves is one the loop never exits from.
-/

namespace Go

section ForLoop
variable {σ ε : Type} (cond : σ → Bool) (body : σ → Except ε σ)

/-- The loop `for cond(s) { s, err = body(s) }`, with at most `fuel` tests of `cond`. -/
def forLoop : Nat → σ → Option (Except ε σ)
  | 0, _ => none
  | fuel + 1, s =>
    if cond s then
      match body s with
      | .error e => some (.error e)
      | .ok s' => forLoop fuel s'
    else some (.ok s)

variable {cond body} {fuel : Nat} {s s' : σ} {e : ε}

theorem forLoop_exit (hc : cond s = false) : forLoop cond body (fuel + 1) s = some (.ok s) := by
  simp [forLoop, hc]

theorem forLoop_error (hc : cond s = true) (hb : body s = .error e) :
    forLoop cond body (fuel + 1) s = some (.error e) := by
  simp [forLoop, hc, hb]

theorem forLoop_next (hc : cond s = true) (hb : body s = .ok s') :
    forLoop cond body (fuel + 1) s = forLoop cond body fuel s' := by
  simp [forLoop, hc, hb]

theorem forLoop_mono {n m : Nat} {r : Except ε σ} (h : forLoop cond body n s = some r)
    (hnm : n ≤ m) : forLoop cond body m s = some r := by
  induction n generalizing m s with
  | zero => simp [forLoop] at h
  | succ n ih =>
    obtain ⟨m, rfl⟩ : ∃ k, m = k + 1 := ⟨m - 1, by omega⟩
    cases hc : cond s with
    | false => rwa [forLoop_exit hc] at h ⊢
    | true =>
      cases hb : body s with
      | error e => rwa [forLoop_error hc hb] at h ⊢
      | ok s' =>
        rw [forLoop_next hc hb] at h ⊢
        exact ih h (by omega)

section Rules
variable (inv : σ → Prop)
  (hstep : ∀ s s', inv s → cond s = true → body s = .ok s' → inv s')
include hstep

/-- The invariant rule at the exit: the invariant holds there, and the condition does not. -/
theorem forLoop_inv_ok {t : σ} (hs : inv s) (h : forLoop cond body fuel s = some (.ok t)) :
    inv t ∧ cond t = false := by
  induction fuel generalizing s with
  | zero => simp [forLoop] at h
  | succ n ih =>
    cases hc : cond s with
    | false =>
      rw [forLoop_exit hc] at h
      obtain rfl : s = t := by simpa using h
      exact ⟨hs, hc⟩
    | true =>
      cases hb : body s with
      | error e => simp [forLoop_error hc hb] at h
      | ok s' =>
        rw [forLoop_next hc hb] at h
        exact ih (hstep s s' hs hc hb) h

/-- The invariant rule at a failure: the loop failed in an iteration that started from a state
where the invariant and the condition held. -/
theorem forLoop_inv_error (hs : inv s) (h : forLoop cond body fuel s = some (.error e)) :
    ∃ t, inv t ∧ cond t = true ∧ body t = .error e := by
  induction fuel generalizing s with
  | zero => simp [forLoop] at h
  | succ n ih =>
    cases hc : cond s with
    | false => simp [forLoop_exit hc] at h
    | true =>
      cases hb : body s with
      | error e' =>
        obtain rfl : e' = e := by simpa [forLoop_error hc hb] using h
        exact ⟨s, hs, hc, hb⟩
      | ok s' =>
        rw [forLoop_next hc hb] at h
        exact ih (hstep s s' hs hc hb) h

/-- The variant rule: fuel above a measure that every iteration lowers is enough for the loop to
exit or fail. -/
theorem forLoop_isSome (μ : σ → Nat)
    (hdec : ∀ s s', inv s → cond s = true → body s = .ok s' → μ s' < μ s)
    (hs : inv s) (hfuel : μ s < fuel) : (forLoop cond body fuel s).isSome := by
  induction fuel generalizing s with
  | zero => omega
  | succ n ih =>
    cases hc : cond s with
    | false => rw [forLoop_exit hc]; rfl
    | true =>
      cases hb : body s with
      | error e => rw [forLoop_error hc hb]; rfl
      | ok s' =>
        rw [forLoop_next hc hb]
        have hlt := hdec s s' hs hc hb
        exact ih (hstep s s' hs hc hb) (by omega)

end Rules

/-- The divergence rule: from a set of states that the condition holds in and that every
iteration stays in, the loop runs out of any fuel. -/
theorem forLoop_eq_none (S : σ → Prop)
    (hS : ∀ s, S s → cond s = true ∧ ∃ s', body s = .ok s' ∧ S s') (hs : S s) :
    forLoop cond body fuel s = none := by
  induction fuel generalizing s with
  | zero => rfl
  | succ n ih =>
    obtain ⟨hc, s', hb, hs'⟩ := hS s hs
    rw [forLoop_next hc hb]
    exact ih hs'

end ForLoop

end Go
