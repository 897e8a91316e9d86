import Mathlib.Algebra.BigOperators.Group.List.Basic
import Mathlib.Algebra.Order.BigOperators.Group.List
import Mathlib.Tactic.Linarith

/-!
# Weighted votes and super-majorities

A list of voters, each with a weight, and the weight behind a predicate. A voter listed twice
counts twice, as it does in a vote tally that walks the list. The one fact that makes
super-majority voting safe is `exists_common_of_superMajority`: two sets of voters that each
hold more than two thirds of the same non-negative total share a voter of positive weight.
`superMajority` is the threshold in integer arithmetic, `⌊2·total/3⌋ + 1`.
-/

namespace Quorum

variable {α : Type} (w : α → Int)

/-- The total weight of the members of `l` that satisfy `p`. -/
def weightOf (p : α → Bool) (l : List α) : Int :=
  ((l.filter p).map w).sum

/-- The least weight above two thirds of `total`, in truncating integer arithmetic. -/
def superMajority (total : Int) : Int :=
  total * 2 / 3 + 1

section weightOf
variable {w} {p q r : α → Bool} {l l' : List α}

@[simp] theorem weightOf_nil : weightOf w p [] = 0 := rfl

theorem weightOf_cons (x : α) (l : List α) :
    weightOf w p (x :: l) = (if p x then w x else 0) + weightOf w p l := by
  unfold weightOf
  by_cases h : p x <;> simp [h]

@[simp] theorem weightOf_append : weightOf w p (l ++ l') = weightOf w p l + weightOf w p l' := by
  simp [weightOf, List.filter_append]

theorem weightOf_perm (h : l.Perm l') : weightOf w p l = weightOf w p l' :=
  ((h.filter p).map w).sum_eq

theorem weightOf_congr (h : ∀ x ∈ l, p x = q x) : weightOf w p l = weightOf w q l := by
  unfold weightOf
  rw [List.filter_congr h]

theorem weightOf_nonneg (hw : ∀ x ∈ l, 0 ≤ w x) : 0 ≤ weightOf w p l :=
  List.sum_nonneg fun _ hx => by
    obtain ⟨x, hx', rfl⟩ := List.mem_map.1 hx
    exact hw x (List.mem_of_mem_filter hx')

theorem weightOf_add_le (hw : ∀ x ∈ l, 0 ≤ w x) (hdisj : ∀ x ∈ l, p x → q x → False)
    (hpr : ∀ x ∈ l, p x → r x) (hqr : ∀ x ∈ l, q x → r x) :
    weightOf w p l + weightOf w q l ≤ weightOf w r l := by
  induction l with
  | nil => simp
  | cons x l ih =>
    have ih := ih (fun y hy => hw y (List.mem_cons_of_mem x hy))
      (fun y hy => hdisj y (List.mem_cons_of_mem x hy))
      (fun y hy => hpr y (List.mem_cons_of_mem x hy)) (fun y hy => hqr y (List.mem_cons_of_mem x hy))
    have hx := hw x List.mem_cons_self
    simp only [weightOf_cons]
    by_cases hp : p x <;> by_cases hq : q x
    · exact (hdisj x List.mem_cons_self hp hq).elim
    · simp [hp, hq, hpr x List.mem_cons_self hp]; linarith
    · simp [hp, hq, hqr x List.mem_cons_self hq]; linarith
    · by_cases hr : r x <;> simp [hp, hq, hr] <;> linarith

theorem weightOf_le (hw : ∀ x ∈ l, 0 ≤ w x) (hpr : ∀ x ∈ l, p x → r x) :
    weightOf w p l ≤ weightOf w r l := by
  have h := weightOf_add_le (q := fun _ => false) hw (by simp) hpr (by simp)
  simpa [weightOf] using h

end weightOf

section superMajority

theorem lt_add_superMajority {total : Int} (h : 0 ≤ total) :
    total < superMajority total + superMajority total := by
  unfold superMajority
  omega

variable {w} {p q r : α → Bool} {l : List α}

/-- Quorum intersection: two predicates that each carry a super-majority of the weight of a
predicate covering them hold together on some voter. -/
theorem exists_common_of_superMajority (hw : ∀ x ∈ l, 0 ≤ w x)
    (hpr : ∀ x ∈ l, p x → r x) (hqr : ∀ x ∈ l, q x → r x)
    (hp : superMajority (weightOf w r l) ≤ weightOf w p l)
    (hq : superMajority (weightOf w r l) ≤ weightOf w q l) :
    ∃ x ∈ l, p x ∧ q x := by
  by_contra hne
  push Not at hne
  have hle := weightOf_add_le hw (fun x hx hpx hqx => absurd hqx (by simp [hne x hx hpx]))
    hpr hqr
  have hlt := lt_add_superMajority (weightOf_nonneg (p := r) hw)
  omega

end superMajority

end Quorum
