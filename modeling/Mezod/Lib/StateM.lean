import Mathlib

/-! # Invariants of `EStateM` computations

A computation preserves a property of its state when from any state with the property it ends,
whether it returns or fails, in a state with the property: the error result of an `EStateM`
carries the state that the writes before the failure left. The rules below carry that through
`bind` and `forM` from the primitive operations, so that a property of a whole handler follows
from one lemma per primitive it calls. `FailsWith` does the same for what a computation fails
with: a handler whose every step fails only in some way fails only in that way. A run applies
operations one after another and reverts each that fails; the run rule carries an invariant of
the state, and of a ghost log of what was observed, over the whole run. -/

namespace EStateM
variable {ε σ α β : Type}

/-- The state a run ends in, whether it returned or failed. -/
def Result.finalState : Result ε σ α → σ
  | .ok _ s => s
  | .error _ s => s

@[simp] theorem Result.finalState_ok (a : α) (s : σ) : (Result.ok a s : Result ε σ α).finalState = s :=
  rfl

@[simp] theorem Result.finalState_error (e : ε) (s : σ) :
    (Result.error e s : Result ε σ α).finalState = s := rfl

@[simp] theorem Result.finalState_map (f : α → β) (r : Result ε σ α) :
    (r.map f).finalState = r.finalState := by
  cases r <;> rfl

/-- What a run returned or failed with, without the state: decidable where `ε` and `α` are, so a
run on a fixed input can be evaluated by `decide`. -/
def Result.toExcept : Result ε σ α → Except ε α
  | .ok a _ => .ok a
  | .error e _ => .error e

theorem Result.toExcept_eq_ok {r : Result ε σ α} {a : α} :
    r.toExcept = .ok a ↔ r = .ok a r.finalState := by
  cases r <;> simp [Result.toExcept]

/-- `x` keeps `P`: from a state with `P` it ends, returning or failing, in a state with `P`. -/
def Preserves (P : σ → Prop) (x : EStateM ε σ α) : Prop :=
  ∀ s, P s → P (x.run s).finalState

variable {P : σ → Prop}

theorem preserves_pure (a : α) : Preserves P (pure a : EStateM ε σ α) :=
  fun _ h => h

theorem preserves_throw (e : ε) : Preserves P (throw e : EStateM ε σ α) :=
  fun _ h => h

theorem preserves_modify {f : σ → σ} (hf : ∀ s, P s → P (f s)) :
    Preserves P (modify f : EStateM ε σ PUnit) :=
  fun s h => hf s h

theorem preserves_bind {x : EStateM ε σ α} {f : α → EStateM ε σ β} (hx : Preserves P x)
    (hf : ∀ a, Preserves P (f a)) : Preserves P (x >>= f) := by
  intro s hs
  have hx := hx s hs
  rw [run_bind]
  cases h : x.run s with
  | ok a s' =>
    rw [h] at hx
    exact hf a s' hx
  | error e s' =>
    rw [h] at hx
    exact hx

theorem preserves_forM {l : List α} {f : α → EStateM ε σ PUnit}
    (hf : ∀ a ∈ l, Preserves P (f a)) : Preserves P (l.forM f) := by
  induction l with
  | nil => exact preserves_pure _
  | cons a l ih =>
    show Preserves P (f a >>= fun _ => l.forM f)
    exact preserves_bind (hf a List.mem_cons_self)
      fun _ => ih fun b hb => hf b (List.mem_cons_of_mem a hb)

@[simp] theorem run_ite_throw_bind {c : Prop} [Decidable c] (e : ε) (f : PUnit → EStateM ε σ α)
    (s : σ) : ((if c then throw e else pure ()) >>= f).run s =
      if c then .error e s else (f ()).run s := by
  split <;> rfl

theorem bind_guard_eq_ok {c : Prop} [Decidable c] {e : ε} {f : PUnit → EStateM ε σ α}
    {s s' : σ} {a : α} (h : ((if c then throw e else pure ()) >>= f).run s = .ok a s') :
    ¬c ∧ (f ()).run s = .ok a s' := by
  rw [run_ite_throw_bind] at h
  split at h
  · cases h
  · exact ⟨‹_›, h⟩

theorem bind_guard_eq_error {c : Prop} [Decidable c] {e : ε} {f : PUnit → EStateM ε σ α}
    {s s' : σ} {e' : ε} (h : ((if c then throw e else pure ()) >>= f).run s = .error e' s') :
    c ∧ e' = e ∧ s' = s ∨ ¬c ∧ (f ()).run s = .error e' s' := by
  rw [run_ite_throw_bind] at h
  split at h
  · cases h
    exact .inl ⟨‹_›, rfl, rfl⟩
  · exact .inr ⟨‹_›, h⟩

@[simp] theorem run_get_bind (f : σ → EStateM ε σ α) (s : σ) :
    (get >>= f).run s = (f s).run s := rfl

/-- A read-only check run in place: it throws what the check returned. -/
def fromExcept (x : Except ε α) : EStateM ε σ α :=
  match x with
  | .ok a => pure a
  | .error e => throw e

theorem fromExcept_bind_eq_ok {x : Except ε α} {f : α → EStateM ε σ β} {s s' : σ} {b : β}
    (h : (fromExcept x >>= f).run s = .ok b s') : ∃ a, x = .ok a ∧ (f a).run s = .ok b s' := by
  cases x with
  | error e => cases h
  | ok a => exact ⟨a, rfl, h⟩

theorem fromExcept_bind_eq_error {x : Except ε α} {f : α → EStateM ε σ β} {s s' : σ} {e : ε}
    (h : (fromExcept x >>= f).run s = .error e s') :
    x = .error e ∧ s' = s ∨ ∃ a, x = .ok a ∧ (f a).run s = .error e s' := by
  cases x with
  | error e₀ =>
    cases h
    exact .inl ⟨rfl, rfl⟩
  | ok a => exact .inr ⟨a, rfl, h⟩

@[simp] theorem run_fromExcept_ok_bind (a : α) (f : α → EStateM ε σ β) (s : σ) :
    (fromExcept (.ok a) >>= f).run s = (f a).run s := rfl

theorem bind_pure_eq_error {x : EStateM ε σ α} {b : β} {s s' : σ} {e : ε}
    (h : (x >>= fun _ => pure b).run s = .error e s') : x.run s = .error e s' := by
  rw [run_bind] at h
  split at h
  · cases h
  · cases h
    assumption

theorem bind_pure_eq_ok {x : EStateM ε σ α} {b b' : β} {s s' : σ}
    (h : (x >>= fun _ => pure b).run s = .ok b' s') : ∃ a, x.run s = .ok a s' := by
  rw [run_bind] at h
  split at h
  · cases h
    exact ⟨_, by assumption⟩
  · cases h

theorem tryCatch_throw_eq_ok {x : EStateM ε σ α} {g : ε → ε} {s s' : σ} {a : α}
    (h : (tryCatch x fun e => throw (g e)).run s = .ok a s') : x.run s = .ok a s' := by
  rw [run_tryCatch] at h
  split at h
  · cases h
    assumption
  · cases h

theorem Preserves.of_ok {x : EStateM ε σ α} (hx : Preserves P x) {s s' : σ} {a : α}
    (hs : P s) (h : x.run s = .ok a s') : P s' := by
  have := hx s hs
  rwa [h] at this

theorem run_bind_congr {x y : EStateM ε σ α} {f : α → EStateM ε σ β} {s s' : σ}
    (h : x.run s = y.run s') : (x >>= f).run s = (y >>= f).run s' := by
  rw [EStateM.run_bind, EStateM.run_bind, h]

theorem bind_eq_ok {x : EStateM ε σ α} {f : α → EStateM ε σ β} {s s' : σ} {b : β}
    (h : (x >>= f).run s = .ok b s') : ∃ a s₁, x.run s = .ok a s₁ ∧ (f a).run s₁ = .ok b s' := by
  rw [run_bind] at h
  cases hrun : x.run s with
  | ok a s₁ =>
    rw [hrun] at h
    exact ⟨a, s₁, rfl, h⟩
  | error e s₁ =>
    rw [hrun] at h
    cases h

theorem bind_eq_error {x : EStateM ε σ α} {f : α → EStateM ε σ β} {s s' : σ} {e : ε}
    (h : (x >>= f).run s = .error e s') :
    x.run s = .error e s' ∨ ∃ a s₁, x.run s = .ok a s₁ ∧ (f a).run s₁ = .error e s' := by
  rw [run_bind] at h
  cases hrun : x.run s with
  | ok a s₁ =>
    rw [hrun] at h
    exact .inr ⟨a, s₁, rfl, h⟩
  | error e₁ s₁ =>
    rw [hrun] at h
    cases h
    exact .inl rfl

theorem Preserves.imp {Q : σ → Prop} {x : EStateM ε σ α} (hx : Preserves P x) {s : σ}
    (hs : P s) (h : ∀ s, P s → Q s) : Q (x.run s).finalState :=
  h _ (hx s hs)

/-! ## How a computation fails -/

/-- Every failure of `x` satisfies `Q`. -/
def FailsWith (Q : ε → Prop) (x : EStateM ε σ α) : Prop :=
  ∀ s e s', x.run s = .error e s' → Q e

variable {Q Q' : ε → Prop}

theorem failsWith_pure (a : α) : FailsWith Q (pure a : EStateM ε σ α) :=
  fun _ _ _ h => by cases h

theorem failsWith_throw {e : ε} (h : Q e) : FailsWith Q (throw e : EStateM ε σ α) :=
  fun _ _ _ h' => by cases h'; exact h

theorem failsWith_bind {x : EStateM ε σ α} {f : α → EStateM ε σ β} (hx : FailsWith Q x)
    (hf : ∀ a, FailsWith Q (f a)) : FailsWith Q (x >>= f) := by
  intro s e s' h
  rw [run_bind] at h
  cases hrun : x.run s with
  | ok a s₁ =>
    rw [hrun] at h
    exact hf a s₁ e s' h
  | error e₁ s₁ =>
    rw [hrun] at h
    obtain ⟨rfl, rfl⟩ := (EStateM.Result.error.injEq _ _ _ _).mp h
    exact hx s e₁ s₁ hrun

theorem FailsWith.imp {x : EStateM ε σ α} (hx : FailsWith Q x) (h : ∀ e, Q e → Q' e) :
    FailsWith Q' x :=
  fun s e s' hrun => h e (hx s e s' hrun)

/-! ## Computations that return

`Returns x s Q` is the weakest precondition of total correctness: from `s`, `x` returns, with a
value and in a state that satisfy `Q`. Its rules compute a handler's result step by step. -/

/-- From `s`, `x` returns with a value and in a state that satisfy `Q`. -/
def Returns (x : EStateM ε σ α) (s : σ) (Q : α → σ → Prop) : Prop :=
  ∃ a s', x.run s = .ok a s' ∧ Q a s'

section returns
variable {s : σ} {Q Q' : α → σ → Prop}

theorem returns_pure {a : α} (h : Q a s) : Returns (pure a : EStateM ε σ α) s Q :=
  ⟨a, s, rfl, h⟩

theorem returns_bind {x : EStateM ε σ α} {f : α → EStateM ε σ β} {R : β → σ → Prop}
    (h : Returns x s fun a s' => Returns (f a) s' R) : Returns (x >>= f) s R := by
  obtain ⟨a, s₁, h₁, b, s₂, h₂, hr⟩ := h
  refine ⟨b, s₂, ?_, hr⟩
  rw [run_bind, h₁]
  exact h₂

theorem Returns.mono {x : EStateM ε σ α} (h : Returns x s Q) (hq : ∀ a s', Q a s' → Q' a s') :
    Returns x s Q' := by
  obtain ⟨a, s', hrun, hq'⟩ := h
  exact ⟨a, s', hrun, hq a s' hq'⟩

theorem returns_forM {l : List β} {f : β → EStateM ε σ PUnit} {I : σ → Prop}
    (hf : ∀ b ∈ l, ∀ s, I s → Returns (f b) s fun _ => I) (hs : I s) :
    Returns (l.forM f) s fun _ => I := by
  induction l generalizing s with
  | nil => exact returns_pure hs
  | cons b l ih =>
    show Returns (f b >>= fun _ => l.forM f) s _
    exact returns_bind ((hf b List.mem_cons_self s hs).mono fun _ s₁ h₁ =>
      ih (fun c hc => hf c (List.mem_cons_of_mem b hc)) h₁)

end returns

/-! ## Runs of transactions -/

/-- The state after `x` from `s`, or `s` when `x` fails: a failed transaction, or a block that
is not committed, leaves the chain as it was. -/
def commit (x : EStateM ε σ α) (s : σ) : σ :=
  match x.run s with
  | .ok _ s' => s'
  | .error _ _ => s

theorem commit_of_ok {x : EStateM ε σ α} {s s' : σ} {a : α} (h : x.run s = .ok a s') :
    commit x s = s' := by
  simp only [commit, h]

theorem commit_of_error {x : EStateM ε σ α} {s s' : σ} {e : ε} (h : x.run s = .error e s') :
    commit x s = s := by
  simp only [commit, h]

/-- What holds of every state a returning run ends in, and of the start, holds after a commit. -/
theorem commit_cases {x : EStateM ε σ α} {s : σ} {P : σ → Prop}
    (hok : ∀ a s', x.run s = .ok a s' → P s') (herr : P s) : P (commit x s) := by
  unfold commit
  split
  · exact hok _ _ (by assumption)
  · exact herr

theorem commit_bind_pure (x : EStateM ε σ α) (s : σ) :
    commit (x >>= fun _ => pure () : EStateM ε σ PUnit) s = commit x s := by
  unfold commit
  rw [run_bind]
  cases x.run s <;> rfl

section run
variable {ι β : Type} (step : ι → EStateM ε σ α) (observe : ι → σ → List β)

/-- The state after the operations `ops`, each run by `step` and reverted when it fails. -/
def runAll : List ι → σ → σ
  | [], s => s
  | op :: ops, s => runAll ops (commit (step op) s)

/-- The state after the operations `ops`, each run by `step` from the state the one before it
left, whether it returned or failed: a program without transactions keeps what a failed call
wrote. -/
def runKeep : List ι → σ → σ
  | [], s => s
  | op :: ops, s => runKeep ops ((step op).run s).finalState

/-- The state after the operations `ops`, each run by `step` and reverted when it fails, and what
`observe` records of each from the state it starts in. -/
def runLog : List ι → σ → σ × List β
  | [], s => (s, [])
  | op :: ops, s =>
    let r := runLog ops (commit (step op) s)
    (r.1, observe op s ++ r.2)

/-- The run rule for the state alone: an invariant that every operation allowed by `A` keeps,
committed or reverted, holds after any run of allowed operations. -/
theorem runAll_induction {A : ι → Prop} {I : σ → Prop}
    (hstep : ∀ op, A op → ∀ s, I s → I (commit (step op) s)) :
    ∀ ops : List ι, (∀ op ∈ ops, A op) → ∀ s, I s → I (runAll step ops s)
  | [], _, _, h => h
  | op :: ops, hA, s, h =>
    runAll_induction hstep ops (fun o ho => hA o (List.mem_cons_of_mem op ho)) _
      (hstep op (hA op List.mem_cons_self) s h)

/-- The run rule without reverts: an invariant that every operation allowed by `A` keeps,
returning or failing, holds after any run of allowed operations. -/
theorem runKeep_induction {A : ι → Prop} {I : σ → Prop}
    (hstep : ∀ op, A op → Preserves I (step op)) :
    ∀ ops : List ι, (∀ op ∈ ops, A op) → ∀ s, I s → I (runKeep step ops s)
  | [], _, _, h => h
  | op :: ops, hA, s, h =>
    runKeep_induction hstep ops (fun o ho => hA o (List.mem_cons_of_mem op ho)) _
      (hstep op (hA op List.mem_cons_self) s h)

theorem runLog_fst : ∀ (ops : List ι) (s : σ), (runLog step observe ops s).1 = runAll step ops s
  | [], _ => rfl
  | _ :: ops, _ => runLog_fst ops _

/-- The run rule: an invariant of the state and of the log so far that every operation allowed
by `A` keeps holds after any run of allowed operations. -/
theorem runLog_induction {A : ι → Prop} {I : σ → List β → Prop}
    (hstep : ∀ op, A op → ∀ s log, I s log → I (commit (step op) s) (log ++ observe op s)) :
    ∀ ops : List ι, (∀ op ∈ ops, A op) → ∀ s log, I s log →
      I (runLog step observe ops s).1 (log ++ (runLog step observe ops s).2)
  | [], _, s, log, h => by simpa [runLog] using h
  | op :: ops, hA, s, log, h => by
    have := runLog_induction hstep ops (fun o ho => hA o (List.mem_cons_of_mem op ho)) _ _
      (hstep op (hA op List.mem_cons_self) s log h)
    simpa [runLog, List.append_assoc] using this

end run

end EStateM
