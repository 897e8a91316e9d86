import Mathlib

/-! # Counters: rate limits over windows of blocks, sequence tips, and keyed writes

A rate limit admits a charge when it fits in the capacity left in the current window, the limit
less what was charged since the window began, or zero when that is negative. A window ends when
enough blocks have passed since it began, counted in unsigned 64-bit arithmetic as block
heights are stored. The abstract view of a limited counter is a `Window`: the value it had when
the window began and the charges made since; the counter as a store keeps it, one number that a
charge adds to and a reset clears, is the window's value after the same events.

`Sequence.range a n` is the list of sequence numbers `a + 1, …, a + n` that a tip of processed
items walks through when it moves from `a` by `n`; its lemmas say how two such walks join up.
The last section is about a store written key by key from a list, as a genesis is loaded. -/

namespace RateLimit

/-- The room left under `limit` after `used`, clamped at zero. -/
def capacity (limit used : Int) : Int :=
  if limit - used < 0 then 0 else limit - used

/-- A window of `period` blocks begun at `last` is over at `current`, in `uint64` arithmetic. -/
def windowOver (period current last : UInt64) : Bool :=
  decide (period ≤ current - last)

theorem capacity_nonneg (limit used : Int) : 0 ≤ capacity limit used := by
  unfold capacity
  split <;> omega

theorem add_le_limit {limit used amount : Int} (hused : used ≤ limit)
    (h : amount ≤ capacity limit used) : used + amount ≤ limit := by
  unfold capacity at h
  split at h <;> omega

theorem not_le_capacity_of_limit_le {limit used amount : Int} (hused : limit ≤ used)
    (hpos : 0 < amount) : ¬ amount ≤ capacity limit used := by
  unfold capacity
  split <;> omega

/-! ## Charges since the window began -/

/-- The counter of charges `log`. -/
def used (log : List Int) : Int :=
  log.sum

@[simp] theorem used_nil : used [] = 0 := rfl

@[simp] theorem used_append (log log' : List Int) : used (log ++ log') = used log + used log' :=
  List.sum_append

@[simp] theorem used_singleton (a : Int) : used [a] = a := by
  simp [used]

/-! ## Windows -/

/-- What a limited counter sees: a charge, or the reset that begins a new window. -/
inductive Event where
  | charge (amount : Int)
  | reset
  deriving DecidableEq, Repr

/-- The counter as the store keeps it: a charge adds to it, a reset clears it. -/
def Event.apply (counter : Int) : Event → Int
  | .charge amount => counter + amount
  | .reset => 0

/-- The abstract view of a counter: its value when the current window began (zero after a
reset), and the charges made in the window, in order. -/
structure Window where
  base : Int
  charges : List Int
  deriving DecidableEq, Repr

namespace Window

/-- What an event does to the window. -/
def step (w : Window) : Event → Window
  | .charge amount => ⟨w.base, w.charges ++ [amount]⟩
  | .reset => ⟨0, []⟩

/-- The counter a window stands for. -/
def value (w : Window) : Int :=
  w.base + used w.charges

/-- The stored counter refines the window: after any events it is the window's value. -/
theorem value_foldl (events : List Event) :
    ∀ w : Window, (events.foldl step w).value = events.foldl Event.apply w.value := by
  induction events with
  | nil => intro w; rfl
  | cons e events ih =>
    intro w
    rw [List.foldl_cons, List.foldl_cons, ih]
    congr 1
    cases e with
    | charge amount => simp [step, value, Event.apply, add_assoc]
    | reset => simp [step, value, Event.apply]

theorem base_foldl (events : List Event) :
    ∀ w : Window, (events.foldl step w).base = if Event.reset ∈ events then 0 else w.base := by
  induction events with
  | nil => intro w; simp
  | cons e events ih =>
    intro w
    rw [List.foldl_cons, ih]
    cases e with
    | charge amount => simp [step]
    | reset => simp [step]

end Window

end RateLimit

namespace Sequence

/-- The sequence numbers `a + 1, …, a + n`. -/
def range (a : Int) (n : Nat) : List Int :=
  (List.range n).map fun i : Nat => a + 1 + i

@[simp] theorem range_zero (a : Int) : range a 0 = [] := rfl

theorem mem_range {a x : Int} {n : Nat} : x ∈ range a n ↔ a < x ∧ x ≤ a + n := by
  unfold range
  constructor
  · rintro h
    obtain ⟨i, hi, rfl⟩ := List.mem_map.1 h
    have := List.mem_range.1 hi
    omega
  · rintro ⟨h1, h2⟩
    exact List.mem_map.2 ⟨(x - a - 1).toNat, List.mem_range.2 (by omega), by omega⟩

theorem range_add (a : Int) (n m : Nat) :
    range a n ++ range (a + n) m = range a (n + m) := by
  unfold range
  rw [List.range_add, List.map_append, List.map_map]
  congr 1
  exact List.map_congr_left fun i _ => by
    simp only [Function.comp_apply]
    omega

theorem range_nodup (a : Int) (n : Nat) : (range a n).Nodup :=
  List.nodup_range.map fun i j hij => by simpa using hij

theorem range_succ (a : Int) (n : Nat) : range a (n + 1) = (a + 1) :: range (a + 1) n := by
  unfold range
  rw [List.range_succ_eq_map, List.map_cons, List.map_map]
  congr 1
  · simp
  · exact List.map_congr_left fun i _ => by simp only [Function.comp_apply]; omega

end Sequence

/-! ## Keyed writes -/

section keyed
variable {α κ ν : Type} [DecidableEq κ] (key : α → κ) (val : α → ν)

theorem foldl_keeps {β γ : Type} {f : β → α → β} (g : β → γ) (h : ∀ b a, g (f b a) = g b) :
    ∀ (l : List α) (b : β), g (l.foldl f b) = g b
  | [], _ => rfl
  | a :: l, b => by rw [List.foldl_cons, foldl_keeps g h l, h]

/-- The store after writing `val a` under `key a` for each `a` of `l`, in order. -/
def writeAll (l : List α) (m : κ → Option ν) : κ → Option ν :=
  l.foldl (fun m a => Function.update m (key a) (some (val a))) m

@[simp] theorem writeAll_nil (m : κ → Option ν) : writeAll key val [] m = m := rfl

@[simp] theorem writeAll_cons (a : α) (l : List α) (m : κ → Option ν) :
    writeAll key val (a :: l) m = writeAll key val l (Function.update m (key a) (some (val a))) :=
  rfl

theorem writeAll_eq_some {l : List α} {m : κ → Option ν} {k : κ} {v : ν}
    (h : writeAll key val l m k = some v) : m k = some v ∨ ∃ a ∈ l, key a = k ∧ val a = v := by
  induction l generalizing m with
  | nil => exact Or.inl h
  | cons a l ih =>
    rw [writeAll_cons] at h
    rcases ih h with h' | ⟨b, hb, hbk, hbv⟩
    · by_cases hk : key a = k
      · subst hk
        simp only [Function.update_self, Option.some.injEq] at h'
        exact Or.inr ⟨a, List.mem_cons_self, rfl, h'⟩
      · rw [Function.update_of_ne (Ne.symm hk)] at h'
        exact Or.inl h'
    · exact Or.inr ⟨b, List.mem_cons_of_mem a hb, hbk, hbv⟩

theorem writeAll_isSome_of_isSome {l : List α} {m : κ → Option ν} {k : κ}
    (h : (m k).isSome) : (writeAll key val l m k).isSome := by
  induction l generalizing m with
  | nil => exact h
  | cons a l ih =>
    rw [writeAll_cons]
    apply ih
    by_cases hk : k = key a
    · subst hk
      simp
    · rwa [Function.update_of_ne hk]

theorem writeAll_isSome {l : List α} (m : κ → Option ν) {a : α} (ha : a ∈ l) :
    (writeAll key val l m (key a)).isSome := by
  induction l generalizing m with
  | nil => cases ha
  | cons b l ih =>
    rw [writeAll_cons]
    rcases List.mem_cons.1 ha with rfl | ha
    · exact writeAll_isSome_of_isSome key val (by simp)
    · exact ih _ ha

end keyed
