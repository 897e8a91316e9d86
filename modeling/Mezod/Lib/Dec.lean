import Mathlib.Algebra.Order.Group.Int
import Mathlib.Data.Nat.Size
import Mezod.Lib.Go

/-! # Fixed-point decimals (`sdkmath.LegacyDec`)

A `LegacyDec` is an integer scaled by `10 ^ 18`. Products are scaled back by rounding half to
even, and `TruncateInt` drops the fraction towards zero. A whole number times a decimal is scaled
back exactly, with no rounding; `truncateInt_newDec_mul_le` is what a caller needs of
such a product when the decimal is at most one.

`sdkmath.Int` is a plain `Int` here. Its `Uint64` panics on a value outside `uint64`, and
`NewIntFromBigInt` on one past 256 bits. -/

namespace Go

/-- `sdkmath.LegacyDec`, by its scaled integer. -/
structure LegacyDec where
  i : Int
  deriving DecidableEq, Repr

namespace LegacyDec

/-- `LegacyPrecision`: the number of decimal digits after the point. -/
def legacyPrecision : Nat := 18

/-- `precisionReuse`, `10 ^ LegacyPrecision`. -/
def precisionReuse : Int := 10 ^ legacyPrecision

/-- `LegacyNewDec`: a whole number as a decimal. -/
def legacyNewDec (n : Int) : LegacyDec := ⟨n * precisionReuse⟩

/-- `LegacyOneDec`. -/
def legacyOneDec : LegacyDec := legacyNewDec 1

/-- `IsNegative`. -/
def isNegative (d : LegacyDec) : Bool := decide (d.i < 0)

/-- `GT`. -/
def gt (d d₂ : LegacyDec) : Bool := decide (d₂.i < d.i)

/-- `chopPrecisionAndRound` of a non-negative value: the quotient by `10 ^ 18`, rounded half to
even. -/
def chopPrecisionAndRoundNonneg (d : Int) : Int :=
  let quo := d.tdiv precisionReuse
  let rem := d.tmod precisionReuse
  if rem = 0 then quo
  else if rem < 5 * 10 ^ (legacyPrecision - 1) then quo
  else if 5 * 10 ^ (legacyPrecision - 1) < rem then quo + 1
  -- bankers rounding: always round to an even number
  else if quo % 2 = 0 then quo
  else quo + 1

/-- `chopPrecisionAndRound`: a negative value is rounded as its negation, and negated back. -/
def chopPrecisionAndRound (d : Int) : Int :=
  if d < 0 then -chopPrecisionAndRoundNonneg (-d) else chopPrecisionAndRoundNonneg d

/-- `maxDecBitLen`: the bits of `MaxBitLen` and of the decimal precision. -/
def maxDecBitLen : Nat := 256 + 60

/-- `Mul`, which panics on a product past `maxDecBitLen` bits. -/
def mul (d d₂ : LegacyDec) : Except GoError LegacyDec :=
  let chopped := chopPrecisionAndRound (d.i * d₂.i)
  if maxDecBitLen < chopped.natAbs.size then .error (.panic "Int overflow")
  else .ok ⟨chopped⟩

/-- `LegacyMaxDec`. -/
def legacyMaxDec (d₁ d₂ : LegacyDec) : LegacyDec := if d₁.i < d₂.i then d₂ else d₁

/-- `TruncateInt`: the fraction dropped towards zero. -/
def truncateInt (d : LegacyDec) : Int := d.i.tdiv precisionReuse

/-- `String`: the whole part, a point and eighteen digits of fraction. -/
def toString (d : LegacyDec) : String :=
  let n := d.i.natAbs
  let frac := Nat.repr (n % 10 ^ legacyPrecision)
  (if d.i < 0 then "-" else "") ++ Nat.repr (n / 10 ^ legacyPrecision) ++ "." ++
    String.ofList (List.replicate (legacyPrecision - frac.length) '0') ++ frac

theorem precisionReuse_pos : 0 < precisionReuse := by
  unfold precisionReuse
  positivity

theorem chopPrecisionAndRound_mul (n : Int) :
    chopPrecisionAndRound (n * precisionReuse) = n := by
  have hne : precisionReuse ≠ 0 := precisionReuse_pos.ne'
  have hnonneg : ∀ m : Int, chopPrecisionAndRoundNonneg (m * precisionReuse) = m := by
    intro m
    simp [chopPrecisionAndRoundNonneg, Int.mul_tdiv_cancel _ hne, Int.mul_tmod_left]
  unfold chopPrecisionAndRound
  split
  · rw [← Int.neg_mul, hnonneg, Int.neg_neg]
  · exact hnonneg n

theorem truncateInt_nonneg {d : LegacyDec} (h : 0 ≤ d.i) : 0 ≤ d.truncateInt :=
  Int.tdiv_nonneg h precisionReuse_pos.le

theorem truncateInt_legacyNewDec (n : Int) : (legacyNewDec n).truncateInt = n :=
  Int.mul_tdiv_cancel n precisionReuse_pos.ne'

theorem legacyNewDec_mul (n : Int) (d : LegacyDec) (h : (n * d.i).natAbs < 2 ^ maxDecBitLen) :
    (legacyNewDec n).mul d = .ok ⟨n * d.i⟩ := by
  have hchop : chopPrecisionAndRound ((legacyNewDec n).i * d.i) = n * d.i := by
    rw [legacyNewDec, Int.mul_right_comm]
    exact chopPrecisionAndRound_mul (n * d.i)
  unfold mul
  rw [hchop, if_neg (not_lt.2 (Nat.size_le.2 h))]

theorem truncateInt_newDec_mul_le {n : Int} {d : LegacyDec} (hn : 0 ≤ n)
    (hd : d.i ≤ precisionReuse) : (⟨n * d.i⟩ : LegacyDec).truncateInt ≤ n := by
  unfold truncateInt
  dsimp only
  rcases lt_or_ge (n * d.i) 0 with hneg | hnonneg
  · -- a negative product truncates towards zero, to at most zero
    have h := Int.tdiv_nonneg (Int.neg_nonneg_of_nonpos hneg.le) precisionReuse_pos.le
    rw [Int.neg_tdiv] at h
    omega
  · rw [Int.tdiv_eq_ediv_of_nonneg hnonneg]
    apply Int.ediv_le_of_le_mul precisionReuse_pos
    exact Int.mul_le_mul_of_nonneg_left hd hn

end LegacyDec

/-- `sdkmath.Int.Uint64`, which panics on a value outside `uint64`. -/
def intUint64 (x : Int) : Except GoError UInt64 :=
  if isUint64 x then .ok (UInt64.ofNat x.toNat) else .error (.panic "Uint64() out of bounds")

/-- `sdkmath.NewIntFromBigInt`, which panics on a value past `MaxBitLen`, 256 bits. -/
def newIntFromBigInt (x : Int) : Except GoError Int :=
  if 256 < x.natAbs.size then .error (.panic "NewIntFromBigInt() out of bound") else .ok x

theorem newIntFromBigInt_of_lt {x : Int} (h : x.natAbs < 2 ^ 256) : newIntFromBigInt x = .ok x :=
  if_neg (not_lt.2 (Nat.size_le.2 h))

theorem intUint64_of_lt {x : Int} (h₀ : 0 ≤ x) (h : x < 2 ^ 64) :
    intUint64 x = .ok (UInt64.ofNat x.toNat) := by
  have h' : x < 18446744073709551616 := h
  simp [intUint64, isUint64, h₀, h']

end Go
