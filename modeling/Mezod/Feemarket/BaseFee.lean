import Mezod.Lib.Dec
import Mezod.Lib.StateM

/-! # The base fee of the fee market (`x/feemarket`)

`BeginBlock` sets the block's base fee from the parameters and the gas the last block wanted, as
EIP-1559 does: the fee moves towards the gas target, the block gas limit over the elasticity
multiplier, by one `BaseFeeChangeDenominator`-th of itself times the relative distance from the
target, and never below the minimum gas price. `EndBlock` stores the gas wanted for the next
block.

The source's comment says that the multiplier cannot be 0 "as it's checked in the params
validation", but neither `Validate` nor `validateElasticityMultiplier` checks it: with a
multiplier 0 the target is a division by zero, a panic in `BeginBlock`. A block gas limit below
the multiplier gives a target 0, and the division by it panics as soon as a block wanted gas.
`calculateBaseFee_total` says which parameters panic, and bounds the base fee of all others. -/

namespace Mezod
namespace Feemarket
open Go Go.LegacyDec EStateM

/-- `Params` of the fee market. -/
structure Params where
  noBaseFee : Bool
  baseFeeChangeDenominator : UInt32
  elasticityMultiplier : UInt32
  baseFee : Int
  enableHeight : Int64
  minGasPrice : LegacyDec
  minGasMultiplier : LegacyDec
  deriving DecidableEq, Repr

/-- `DefaultParams`, with go-ethereum's `DefaultBaseFeeChangeDenominator`,
`DefaultElasticityMultiplier` and `InitialBaseFee`. -/
def defaultParams : Params where
  noBaseFee := false
  baseFeeChangeDenominator := 8
  elasticityMultiplier := 2
  baseFee := 1000000000
  enableHeight := 0
  minGasPrice := ⟨0⟩
  -- `LegacyNewDecWithPrec(50, 2)`
  minGasMultiplier := ⟨50 * 10 ^ 16⟩

/-! ## Validation -/

/-- `validateBool`: only the type is checked. -/
def validateBool (_ : Bool) : Except String Unit := .ok ()

/-- `validateBaseFeeChangeDenominator`. -/
def validateBaseFeeChangeDenominator (value : UInt32) : Except String Unit :=
  if value = 0 then .error "base fee change denominator cannot be 0" else .ok ()

/-- `validateElasticityMultiplier`: only the type is checked, so 0 passes. -/
def validateElasticityMultiplier (_ : UInt32) : Except String Unit := .ok ()

/-- `validateBaseFee`. -/
def validateBaseFee (value : Int) : Except String Unit :=
  if value < 0 then .error "base fee cannot be negative" else .ok ()

/-- `validateEnableHeight`. -/
def validateEnableHeight (value : Int64) : Except String Unit :=
  if value < 0 then .error ("enable height cannot be negative: " ++ toString value.toInt)
  else .ok ()

/-- `validateMinGasPrice`. -/
def validateMinGasPrice (v : LegacyDec) : Except String Unit :=
  if v.isNegative then .error ("value cannot be negative: " ++ v.toString) else .ok ()

/-- `validateMinGasMultiplier`. -/
def validateMinGasMultiplier (v : LegacyDec) : Except String Unit :=
  if v.isNegative then .error ("value cannot be negative: " ++ v.toString)
  else if v.gt legacyOneDec then .error ("value cannot be greater than 1: " ++ v.toString)
  else .ok ()

/-- `Validate`. -/
def Params.validate (p : Params) : Except String Unit := do
  if p.baseFeeChangeDenominator = 0 then throw "base fee change denominator cannot be 0"
  if p.baseFee < 0 then throw ("initial base fee cannot be negative: " ++ toString p.baseFee)
  if p.enableHeight < 0 then
    throw ("enable height cannot be negative: " ++ toString p.enableHeight.toInt)
  validateMinGasMultiplier p.minGasMultiplier
  validateMinGasPrice p.minGasPrice

/-- The validators of `ParamSetPairs`, in their order; the minimum gas multiplier is checked with
`validateMinGasPrice`. -/
def Params.validateParamSetPairs (p : Params) : Except String Unit := do
  validateBool p.noBaseFee
  validateBaseFeeChangeDenominator p.baseFeeChangeDenominator
  validateElasticityMultiplier p.elasticityMultiplier
  validateBaseFee p.baseFee
  validateEnableHeight p.enableHeight
  validateMinGasPrice p.minGasPrice
  validateMinGasPrice p.minGasMultiplier

/-- What `Validate` checks, as numbers. -/
structure Params.Valid (p : Params) : Prop where
  denominator_ne_zero : p.baseFeeChangeDenominator ≠ 0
  baseFee_nonneg : 0 ≤ p.baseFee
  enableHeight_nonneg : 0 ≤ p.enableHeight
  minGasMultiplier_nonneg : 0 ≤ p.minGasMultiplier.i
  minGasMultiplier_le_one : p.minGasMultiplier.i ≤ precisionReuse
  minGasPrice_nonneg : 0 ≤ p.minGasPrice.i

theorem validateMinGasPrice_eq_ok {v : LegacyDec} :
    validateMinGasPrice v = .ok () ↔ 0 ≤ v.i := by
  unfold validateMinGasPrice isNegative
  split <;> simp_all

theorem validateMinGasMultiplier_eq_ok {v : LegacyDec} :
    validateMinGasMultiplier v = .ok () ↔ 0 ≤ v.i ∧ v.i ≤ precisionReuse := by
  have hone : legacyOneDec.i = precisionReuse := Int.one_mul _
  unfold validateMinGasMultiplier isNegative gt
  split
  · simp_all
  · split <;> simp_all

theorem Params.validate_eq_ok {p : Params} : p.validate = .ok () ↔ p.Valid := by
  constructor
  · intro h
    simp only [Params.validate] at h
    split at h
    · cases h
    split at h
    · cases h
    split at h
    · cases h
    obtain ⟨⟨⟩, hmul, hmin⟩ := except_bind_eq_ok.1 h
    obtain ⟨hmul₀, hmul₁⟩ := validateMinGasMultiplier_eq_ok.1 hmul
    exact ⟨‹_›, by omega, by simpa using ‹¬p.enableHeight < 0›, hmul₀, hmul₁,
      validateMinGasPrice_eq_ok.1 hmin⟩
  · intro hv
    have hdenom : ¬ p.baseFeeChangeDenominator = 0 := hv.denominator_ne_zero
    have hbase : ¬ p.baseFee < 0 := by have := hv.baseFee_nonneg; omega
    have hheight : ¬ p.enableHeight < 0 := by simpa using hv.enableHeight_nonneg
    simp only [Params.validate, if_neg hdenom, if_neg hbase, if_neg hheight,
      validateMinGasMultiplier_eq_ok.2 ⟨hv.minGasMultiplier_nonneg, hv.minGasMultiplier_le_one⟩]
    exact validateMinGasPrice_eq_ok.2 hv.minGasPrice_nonneg

theorem Params.validateParamSetPairs_of_valid {p : Params} (hv : p.Valid) :
    p.validateParamSetPairs = .ok () := by
  have hdenom : validateBaseFeeChangeDenominator p.baseFeeChangeDenominator = .ok () :=
    if_neg hv.denominator_ne_zero
  have hbase : validateBaseFee p.baseFee = .ok () := if_neg (by have := hv.baseFee_nonneg; omega)
  have hheight : validateEnableHeight p.enableHeight = .ok () :=
    if_neg (by simpa using hv.enableHeight_nonneg)
  simp only [Params.validateParamSetPairs, validateBool, validateElasticityMultiplier, hdenom,
    hbase, hheight, validateMinGasPrice_eq_ok.2 hv.minGasPrice_nonneg,
    validateMinGasPrice_eq_ok.2 hv.minGasMultiplier_nonneg]
  rfl

theorem defaultParams_valid : defaultParams.Valid :=
  ⟨by decide, by decide, by decide, by decide, by decide, by decide⟩

/-! ## `CalculateBaseFee` -/

/-- `IsBaseFeeEnabled`. -/
def Params.isBaseFeeEnabled (p : Params) (height : Int64) : Bool :=
  !p.noBaseFee && decide (p.enableHeight ≤ height)

/-- The block gas limit: the consensus `MaxGas` where the block parameters are set and it is not
`-1`, which means unlimited; else `MaxUint64`. -/
def gasLimit : Option Int64 → Int
  | some maxGas => if maxGas > -1 then maxGas.toInt else 2 ^ 64 - 1
  | none => 2 ^ 64 - 1

/-- The change of the base fee before it is clamped: the base fee times the distance from the
target, over the target and over the denominator. -/
def baseFeeDelta (parentBaseFee : Int) (gasUsedDelta : UInt64)
    (parentGasTargetBig baseFeeChangeDenominator : Int) : Except GoError Int := do
  let y ← bigDiv (parentBaseFee * gasUsedDelta.toNat) parentGasTargetBig
  bigDiv y baseFeeChangeDenominator

/-- The base fee once the target is known: unchanged on the target, up by at least one above it,
and down, but not below the minimum gas price, under it. -/
def nextBaseFee (params : Params) (parentGasTargetBig : Int) (parentGasUsed : UInt64) :
    Except GoError Int :=
  let parentBaseFee := params.baseFee
  let parentGasTarget := UInt64.ofNat parentGasTargetBig.toNat
  let baseFeeChangeDenominator : Int := params.baseFeeChangeDenominator.toNat
  if parentGasUsed = parentGasTarget then pure parentBaseFee
  else if parentGasUsed > parentGasTarget then do
    let baseFeeDelta ← baseFeeDelta parentBaseFee (parentGasUsed - parentGasTarget)
      parentGasTargetBig baseFeeChangeDenominator
    pure (parentBaseFee + if baseFeeDelta < 1 then 1 else baseFeeDelta)
  else do
    let baseFeeDelta ← baseFeeDelta parentBaseFee (parentGasTarget - parentGasUsed)
      parentGasTargetBig baseFeeChangeDenominator
    let minGasPrice := params.minGasPrice.truncateInt
    let nextBaseFee := parentBaseFee - baseFeeDelta
    pure (if nextBaseFee < minGasPrice then minGasPrice else nextBaseFee)

/-- `CalculateBaseFee`, from the parameters, the block height, the consensus `MaxGas` (none where
the block parameters are nil) and the gas the last block wanted; `none` is Go's `nil`. -/
def calculateBaseFee (params : Params) (blockHeight : Int64) (maxGas : Option Int64)
    (parentGasUsed : UInt64) : Except GoError (Option Int) :=
  if !params.isBaseFeeEnabled blockHeight then pure none
  -- the first EIP-1559 block takes the base fee of the parameters
  else if blockHeight = params.enableHeight then pure (some params.baseFee)
  else do
    let parentGasTargetBig ← bigDiv (gasLimit maxGas) params.elasticityMultiplier.toNat
    if !isUint64 parentGasTargetBig then pure none
    else some <$> nextBaseFee params parentGasTargetBig parentGasUsed

/-! ## What `CalculateBaseFee` returns -/

/-- The gas target: the block gas limit over the elasticity multiplier. -/
def gasTarget (params : Params) (maxGas : Option Int64) : Int :=
  gasLimit maxGas / params.elasticityMultiplier.toNat

/-- The computation divides by zero: the multiplier is 0, or the target is 0 and the last block
wanted gas. -/
def DividesByZero (params : Params) (maxGas : Option Int64) (parentGasUsed : UInt64) : Prop :=
  params.elasticityMultiplier = 0 ∨ (gasTarget params maxGas = 0 ∧ parentGasUsed ≠ 0)

/-- The bounds on a base fee `fee` computed from `parentBaseFee`, with the truncated minimum gas
price `minGasPrice`, the gas target and the gas the last block wanted. -/
structure NextBaseFeeBounds (minGasPrice parentBaseFee parentGasTarget parentGasUsed fee : Int) :
    Prop where
  nonneg : 0 ≤ fee
  min_le : minGasPrice ≤ parentBaseFee → minGasPrice ≤ fee
  increase : parentGasTarget < parentGasUsed → parentBaseFee < fee
  decrease : minGasPrice ≤ parentBaseFee → parentGasUsed < parentGasTarget → fee ≤ parentBaseFee

theorem gasLimit_nonneg (maxGas : Option Int64) : 0 ≤ gasLimit maxGas := by
  cases maxGas with
  | none => simp [gasLimit]
  | some m =>
    have hneg : (-1 : Int64).toInt = -1 := by decide
    simp only [gasLimit, gt_iff_lt, Int64.lt_iff_toInt_lt, hneg]
    split <;> omega

theorem gasLimit_lt (maxGas : Option Int64) : gasLimit maxGas < 2 ^ 64 := by
  cases maxGas with
  | none => simp [gasLimit]
  | some m =>
    have hm := Int64.toInt_le m
    have hmax : Int64.maxValue.toInt = 2 ^ 63 - 1 := by decide
    simp only [gasLimit]
    split <;> omega

theorem baseFeeDelta_eq {parentBaseFee parentGasTargetBig baseFeeChangeDenominator : Int}
    {gasUsedDelta : UInt64} (ht : parentGasTargetBig ≠ 0) (hd : baseFeeChangeDenominator ≠ 0) :
    baseFeeDelta parentBaseFee gasUsedDelta parentGasTargetBig baseFeeChangeDenominator =
      .ok (parentBaseFee * gasUsedDelta.toNat / parentGasTargetBig / baseFeeChangeDenominator) := by
  simp only [baseFeeDelta, bigDiv_of_ne_zero ht, except_bind_ok, bigDiv_of_ne_zero hd]

theorem delta_le {parentBaseFee target denominator delta : Int} (hp : 0 ≤ parentBaseFee)
    (ht : 0 < target) (hd : 0 < denominator) (hdelta₀ : 0 ≤ delta) (hdelta : delta ≤ target) :
    0 ≤ parentBaseFee * delta / target / denominator ∧
      parentBaseFee * delta / target / denominator ≤ parentBaseFee := by
  have hprod : 0 ≤ parentBaseFee * delta := Int.mul_nonneg hp hdelta₀
  have hy : parentBaseFee * delta / target ≤ parentBaseFee :=
    Int.ediv_le_of_le_mul ht (Int.mul_le_mul_of_nonneg_left hdelta hp)
  have hy₀ : 0 ≤ parentBaseFee * delta / target := Int.ediv_nonneg hprod ht.le
  exact ⟨Int.ediv_nonneg hy₀ hd.le, (Int.ediv_le_self _ hy₀).trans hy⟩

section next
variable {params : Params} {t : Int} {parentGasUsed : UInt64}

theorem toNat_ofNat_target (ht₀ : 0 ≤ t) (ht : t < 2 ^ 64) :
    (UInt64.ofNat t.toNat).toNat = t.toNat :=
  UInt64.toNat_ofNat_of_lt' (by rw [UInt64.size]; omega)

theorem nextBaseFee_of_eq (ht₀ : 0 ≤ t) (ht : t < 2 ^ 64) (hused : (parentGasUsed.toNat : Int) = t) :
    nextBaseFee params t parentGasUsed = .ok params.baseFee := by
  have heq : parentGasUsed = UInt64.ofNat t.toNat := by
    rw [← UInt64.toNat_inj, toNat_ofNat_target ht₀ ht]
    omega
  simp only [nextBaseFee, if_pos heq]
  rfl

theorem nextBaseFee_zero_target (hused : parentGasUsed ≠ 0) :
    nextBaseFee params 0 parentGasUsed = .error (.panic "division by zero") := by
  have hzero : UInt64.ofNat (0 : Int).toNat = 0 := rfl
  have hlt : parentGasUsed > 0 := by
    rw [gt_iff_lt, UInt64.lt_iff_toNat_lt]
    have : parentGasUsed.toNat ≠ 0 := fun h => hused (UInt64.toNat_inj.1 h)
    simp only [UInt64.toNat_zero]
    omega
  simp only [nextBaseFee, hzero, if_neg hused, if_pos hlt, baseFeeDelta, bigDiv_zero]
  rfl

/-- On a positive target the base fee is computed, and it keeps the bounds. -/
theorem nextBaseFee_bounds (hv : params.Valid) (ht₀ : 0 < t) (ht : t < 2 ^ 64) :
    ∃ fee, nextBaseFee params t parentGasUsed = .ok fee ∧
      NextBaseFeeBounds params.minGasPrice.truncateInt params.baseFee t parentGasUsed.toNat fee := by
  have hp := hv.baseFee_nonneg
  have hmin₀ : 0 ≤ params.minGasPrice.truncateInt := truncateInt_nonneg hv.minGasPrice_nonneg
  have hd : (0 : Int) < params.baseFeeChangeDenominator.toNat := by
    have : params.baseFeeChangeDenominator.toNat ≠ 0 := fun h =>
      hv.denominator_ne_zero (UInt32.ext_iff.2 h)
    omega
  have htarget : (UInt64.ofNat t.toNat).toNat = t.toNat := toNat_ofNat_target ht₀.le ht
  have hdelta : ∀ g : UInt64, baseFeeDelta params.baseFee g t params.baseFeeChangeDenominator.toNat =
      .ok (params.baseFee * g.toNat / t / params.baseFeeChangeDenominator.toNat) :=
    fun _ => baseFeeDelta_eq ht₀.ne' hd.ne'
  by_cases heq : parentGasUsed = UInt64.ofNat t.toNat
  · -- on the target
    have hused : (parentGasUsed.toNat : Int) = t := by
      rw [heq, htarget]
      omega
    refine ⟨_, nextBaseFee_of_eq ht₀.le ht hused, ⟨hp, id, fun h => ?_, fun _ h => ?_⟩⟩ <;> omega
  by_cases hgt : parentGasUsed > UInt64.ofNat t.toNat
  · -- above the target: up by at least one
    have hgt' : t.toNat < parentGasUsed.toNat := by
      rwa [gt_iff_lt, UInt64.lt_iff_toNat_lt, htarget] at hgt
    refine ⟨_, by simp only [nextBaseFee, if_neg heq, if_pos hgt, hdelta, except_bind_ok]; rfl, ?_⟩
    constructor <;> intros <;> split <;> omega
  · -- below the target: down by at most the base fee, and not below the minimum gas price
    have hlt : parentGasUsed.toNat < t.toNat := by
      rw [gt_iff_lt, UInt64.lt_iff_toNat_lt, htarget] at hgt
      have hne : parentGasUsed.toNat ≠ t.toNat := fun h =>
        heq (UInt64.toNat_inj.1 (by rw [htarget]; exact h))
      omega
    have hsub : ((UInt64.ofNat t.toNat - parentGasUsed).toNat : Int) = t - parentGasUsed.toNat := by
      rw [UInt64.toNat_sub_of_le _ _ (UInt64.le_iff_toNat_le.2 (by rw [htarget]; omega)), htarget]
      omega
    obtain ⟨hδ₀, hδ⟩ := delta_le hp ht₀ hd (by omega) (by omega : t - parentGasUsed.toNat ≤ t)
    rw [← hsub] at hδ₀ hδ
    refine ⟨_, by simp only [nextBaseFee, if_neg heq, if_neg hgt, hdelta, except_bind_ok]; rfl, ?_⟩
    constructor <;> intros <;> split <;> omega

end next

theorem calculateBaseFee_of_noBaseFee {params : Params} (h : params.noBaseFee = true)
    (blockHeight : Int64) (maxGas : Option Int64) (parentGasUsed : UInt64) :
    calculateBaseFee params blockHeight maxGas parentGasUsed = .ok none := by
  simp [calculateBaseFee, Params.isBaseFeeEnabled, h]
  rfl

theorem calculateBaseFee_of_lt {params : Params} {blockHeight : Int64}
    (h : blockHeight < params.enableHeight) (maxGas : Option Int64) (parentGasUsed : UInt64) :
    calculateBaseFee params blockHeight maxGas parentGasUsed = .ok none := by
  simp [calculateBaseFee, Params.isBaseFeeEnabled, h]
  rfl

theorem gasTarget_nonneg_lt (params : Params) (maxGas : Option Int64) :
    0 ≤ gasTarget params maxGas ∧ gasTarget params maxGas < 2 ^ 64 :=
  ⟨Int.ediv_nonneg (gasLimit_nonneg maxGas) (Int.natCast_nonneg _),
    lt_of_le_of_lt (Int.ediv_le_self _ (gasLimit_nonneg maxGas)) (gasLimit_lt maxGas)⟩

section enabled
variable {params : Params} {blockHeight : Int64} (hno : params.noBaseFee = false)
  (hh : params.enableHeight ≤ blockHeight) {maxGas : Option Int64} (parentGasUsed : UInt64)
include hno hh

theorem isBaseFeeEnabled_eq_true : params.isBaseFeeEnabled blockHeight = true := by
  simp [Params.isBaseFeeEnabled, hno, hh]

theorem calculateBaseFee_enableHeight (heq : blockHeight = params.enableHeight) :
    calculateBaseFee params blockHeight maxGas parentGasUsed = .ok (some params.baseFee) := by
  simp only [calculateBaseFee, isBaseFeeEnabled_eq_true hno hh, if_pos heq]
  rfl

theorem calculateBaseFee_eq_nextBaseFee (hne : blockHeight ≠ params.enableHeight)
    (hmul : params.elasticityMultiplier ≠ 0) :
    calculateBaseFee params blockHeight maxGas parentGasUsed =
      some <$> nextBaseFee params (gasTarget params maxGas) parentGasUsed := by
  have hmul' : ((params.elasticityMultiplier.toNat : Nat) : Int) ≠ 0 := by
    have : params.elasticityMultiplier.toNat ≠ 0 := fun h => hmul (UInt32.ext_iff.2 h)
    omega
  have hfits : isUint64 (gasTarget params maxGas) = true := by
    simpa only [isUint64, decide_eq_true_eq] using gasTarget_nonneg_lt params maxGas
  simp only [calculateBaseFee, isBaseFeeEnabled_eq_true hno hh, if_neg hne, bigDiv_of_ne_zero hmul',
    except_bind_ok]
  rw [← gasTarget, hfits]
  rfl

theorem calculateBaseFee_zero_multiplier (hne : blockHeight ≠ params.enableHeight)
    (hmul : params.elasticityMultiplier = 0) :
    calculateBaseFee params blockHeight maxGas parentGasUsed =
      .error (.panic "division by zero") := by
  have hzero : ((params.elasticityMultiplier.toNat : Nat) : Int) = 0 := by simp [hmul]
  simp only [calculateBaseFee, isBaseFeeEnabled_eq_true hno hh, if_neg hne, hzero, bigDiv_zero]
  rfl

/-- After the first EIP-1559 block: a panic exactly where the computation divides by zero, and
else a base fee within the bounds. -/
theorem calculateBaseFee_after_enableHeight (hv : params.Valid)
    (hne : blockHeight ≠ params.enableHeight) :
    (DividesByZero params maxGas parentGasUsed ∧
        calculateBaseFee params blockHeight maxGas parentGasUsed =
          .error (.panic "division by zero")) ∨
      (¬ DividesByZero params maxGas parentGasUsed ∧ ∃ fee,
        calculateBaseFee params blockHeight maxGas parentGasUsed = .ok (some fee) ∧
        NextBaseFeeBounds params.minGasPrice.truncateInt params.baseFee
          (gasTarget params maxGas) parentGasUsed.toNat fee) := by
  by_cases hmul : params.elasticityMultiplier = 0
  · exact .inl ⟨.inl hmul, calculateBaseFee_zero_multiplier hno hh _ hne hmul⟩
  have hcalc : calculateBaseFee params blockHeight maxGas parentGasUsed =
      some <$> nextBaseFee params (gasTarget params maxGas) parentGasUsed :=
    calculateBaseFee_eq_nextBaseFee hno hh parentGasUsed hne hmul
  obtain ⟨ht₀, ht⟩ := gasTarget_nonneg_lt params maxGas
  by_cases hzero : gasTarget params maxGas = 0 ∧ parentGasUsed ≠ 0
  · -- a target 0 under a block that wanted gas
    refine .inl ⟨.inr hzero, ?_⟩
    rw [hcalc, hzero.1, nextBaseFee_zero_target hzero.2]
    rfl
  refine .inr ⟨fun h => h.elim hmul hzero, ?_⟩
  rcases lt_or_eq_of_le ht₀ with hpos | htzero
  · obtain ⟨fee, hfee, hbounds⟩ := @nextBaseFee_bounds params _ parentGasUsed hv hpos ht
    exact ⟨fee, by rw [hcalc, hfee]; rfl, hbounds⟩
  · -- a target 0 that the last block was on
    have hused : parentGasUsed = 0 := by
      by_contra hne
      exact hzero ⟨htzero.symm, hne⟩
    have hnext := @nextBaseFee_of_eq params _ _ le_rfl (by norm_num)
      (by simp [hused] : ((parentGasUsed.toNat : Nat) : Int) = 0)
    refine ⟨params.baseFee, by rw [hcalc, ← htzero, hnext]; rfl, ?_⟩
    refine ⟨hv.baseFee_nonneg, id, fun h => ?_, fun _ h => ?_⟩ <;> simp [hused] at h <;> omega

end enabled

theorem calculateBaseFee_some {params : Params} (hv : params.Valid) {blockHeight : Int64}
    {maxGas : Option Int64} {parentGasUsed : UInt64} {fee : Int}
    (h : calculateBaseFee params blockHeight maxGas parentGasUsed = .ok (some fee)) :
    0 ≤ fee ∧ (params.minGasPrice.truncateInt ≤ params.baseFee →
      params.minGasPrice.truncateInt ≤ fee) := by
  cases hno : params.noBaseFee with
  | true =>
    rw [calculateBaseFee_of_noBaseFee hno] at h
    cases h
  | false =>
    by_cases hh : params.enableHeight ≤ blockHeight
    swap
    · have hlt : blockHeight < params.enableHeight := by
        rw [Int64.le_iff_toInt_le] at hh
        rw [Int64.lt_iff_toInt_lt]
        omega
      rw [calculateBaseFee_of_lt hlt] at h
      cases h
    by_cases heq : blockHeight = params.enableHeight
    · rw [calculateBaseFee_enableHeight hno hh _ heq] at h
      cases h
      exact ⟨hv.baseFee_nonneg, id⟩
    rcases calculateBaseFee_after_enableHeight hno hh parentGasUsed hv heq with
      ⟨-, hcalc⟩ | ⟨-, fee', hcalc, hbounds⟩
    · rw [hcalc] at h
      cases h
    · rw [hcalc] at h
      cases h
      exact ⟨hbounds.nonneg, hbounds.min_le⟩

/-- `CalculateBaseFee` on parameters that pass `Validate`, at a height at or after the enable
height: it returns nil when the base fee is off, the parameters' base fee at the enable height,
panics exactly where it divides by zero, and else returns a base fee within the EIP-1559
bounds. -/
theorem calculateBaseFee_total {params : Params} (hp : params.validate = .ok ())
    (maxGas : Option Int64) {blockHeight : Int64} (hh : params.enableHeight ≤ blockHeight)
    (parentGasUsed : UInt64) :
    (params.noBaseFee = true ∧
        calculateBaseFee params blockHeight maxGas parentGasUsed = .ok none) ∨
      (params.noBaseFee = false ∧ blockHeight = params.enableHeight ∧
        calculateBaseFee params blockHeight maxGas parentGasUsed = .ok (some params.baseFee)) ∨
      (params.noBaseFee = false ∧ blockHeight ≠ params.enableHeight ∧
        DividesByZero params maxGas parentGasUsed ∧
        calculateBaseFee params blockHeight maxGas parentGasUsed =
          .error (.panic "division by zero")) ∨
      (params.noBaseFee = false ∧ blockHeight ≠ params.enableHeight ∧
        ¬ DividesByZero params maxGas parentGasUsed ∧ ∃ fee,
          calculateBaseFee params blockHeight maxGas parentGasUsed = .ok (some fee) ∧
          NextBaseFeeBounds params.minGasPrice.truncateInt params.baseFee
            (gasTarget params maxGas) parentGasUsed.toNat fee) := by
  have hv := Params.validate_eq_ok.1 hp
  cases hno : params.noBaseFee with
  | true => exact .inl ⟨rfl, calculateBaseFee_of_noBaseFee hno _ _ _⟩
  | false =>
    by_cases heq : blockHeight = params.enableHeight
    · exact .inr (.inl ⟨rfl, heq, calculateBaseFee_enableHeight hno hh _ heq⟩)
    rcases calculateBaseFee_after_enableHeight hno hh parentGasUsed hv heq with
      ⟨hzero, hcalc⟩ | ⟨hzero, hcalc⟩
    · exact .inr (.inr (.inl ⟨rfl, heq, hzero, hcalc⟩))
    · exact .inr (.inr (.inr ⟨rfl, heq, hzero, hcalc⟩))

/-- The hypotheses hold of the default parameters, at height 1. -/
theorem calculateBaseFee_total_default :
    defaultParams.validate = .ok () ∧ defaultParams.enableHeight ≤ 1 ∧
      ((defaultParams.noBaseFee = true ∧ calculateBaseFee defaultParams 1 none 0 = .ok none) ∨
        (defaultParams.noBaseFee = false ∧ (1 : Int64) = defaultParams.enableHeight ∧
          calculateBaseFee defaultParams 1 none 0 = .ok (some defaultParams.baseFee)) ∨
        (defaultParams.noBaseFee = false ∧ (1 : Int64) ≠ defaultParams.enableHeight ∧
          DividesByZero defaultParams none 0 ∧
          calculateBaseFee defaultParams 1 none 0 = .error (.panic "division by zero")) ∨
        (defaultParams.noBaseFee = false ∧ (1 : Int64) ≠ defaultParams.enableHeight ∧
          ¬ DividesByZero defaultParams none 0 ∧ ∃ fee,
            calculateBaseFee defaultParams 1 none 0 = .ok (some fee) ∧
            NextBaseFeeBounds defaultParams.minGasPrice.truncateInt defaultParams.baseFee
              (gasTarget defaultParams none) (UInt64.toNat 0) fee)) :=
  ⟨Params.validate_eq_ok.2 defaultParams_valid, by decide,
    calculateBaseFee_total (Params.validate_eq_ok.2 defaultParams_valid) none (by decide) 0⟩

/-- A multiplier 0 passes `Validate` and the validators of the pairs, and the base fee of the
block after the enable height is then a division by zero. So is a block gas limit of 1 under the
default multiplier 2, once a block wanted gas. At the enable height the base fee stays the
parameters' one, whatever the last block wanted. -/
theorem calculateBaseFee_zeroElasticity :
    let params := { defaultParams with elasticityMultiplier := 0 }
    params.validate = .ok () ∧ params.validateParamSetPairs = .ok () ∧
      calculateBaseFee params 1 none 0 = .error (.panic "division by zero") ∧
      calculateBaseFee defaultParams 1 (some 1) 1 = .error (.panic "division by zero") ∧
      calculateBaseFee defaultParams 0 none (2 ^ 64 - 1) = .ok (some defaultParams.baseFee) :=
  ⟨rfl, rfl, rfl, rfl, rfl⟩

end Feemarket
end Mezod
