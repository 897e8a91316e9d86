import Mezod.Feemarket.BaseFee

/-! # The fee market's block hooks (`x/feemarket/keeper/abci.go`)

`BeginBlock` stores the base fee `CalculateBaseFee` returns, unless it is nil; `EndBlock` stores
the gas the block wanted, at least the gas it used and at least `MinGasMultiplier` of the gas its
transactions asked for, for the next block's base fee. A gas wanted or used past `MaxInt64` is
logged and nothing is stored. The events and the telemetry are not modelled.

`FeemarketInv` is what every run of the hooks keeps: parameters that pass `Validate` and a gas
wanted that fits `int64`. A base fee at or above the truncated minimum gas price stays there. -/

namespace Mezod
namespace Feemarket
open Go Go.LegacyDec EStateM

/-- The fee market's store: its parameters, and the gas the last block wanted. -/
structure FeemarketStore where
  params : Params
  blockGasWanted : UInt64
  deriving DecidableEq, Repr

/-- `SetBaseFee`. -/
def setBaseFee (baseFee : Int) : EStateM GoError FeemarketStore Unit := do
  let baseFee ← fromExcept (newIntFromBigInt baseFee)
  modify fun s => { s with params := { s.params with baseFee := baseFee } }

/-- `BeginBlock`, at a block height and under the consensus `MaxGas`. -/
def beginBlock (blockHeight : Int64) (maxGas : Option Int64) :
    EStateM GoError FeemarketStore Unit := do
  let s ← get
  match ← fromExcept (calculateBaseFee s.params blockHeight maxGas s.blockGasWanted) with
  | none => pure ()
  | some baseFee => setBaseFee baseFee

/-- `EndBlock`, with the block gas meter's `GasConsumedToLimit` (none for a nil meter) and the
gas wanted of the block's transactions. -/
def endBlock (gasConsumed : Option UInt64) (transientGasWanted : UInt64) :
    EStateM GoError FeemarketStore Unit :=
  match gasConsumed with
  | none => pure ()
  | some gasConsumed =>
    if 2 ^ 63 ≤ transientGasWanted.toNat then pure ()
    else if 2 ^ 63 ≤ gasConsumed.toNat then pure ()
    else do
      let s ← get
      let limitedGasWanted ←
        fromExcept ((legacyNewDec transientGasWanted.toNat).mul s.params.minGasMultiplier)
      let updatedGasWanted ← fromExcept
        (intUint64 (legacyMaxDec limitedGasWanted (legacyNewDec gasConsumed.toNat)).truncateInt)
      set { s with blockGasWanted := updatedGasWanted }

/-- A call of the chain on the fee market. -/
inductive FeemarketCall where
  | beginBlock (blockHeight : Int64) (maxGas : Option Int64)
  | endBlock (gasConsumed : Option UInt64) (transientGasWanted : UInt64)
  deriving DecidableEq, Repr

/-- A call run on the store. -/
def FeemarketCall.run : FeemarketCall → EStateM GoError FeemarketStore Unit
  | .beginBlock blockHeight maxGas => Feemarket.beginBlock blockHeight maxGas
  | .endBlock gasConsumed transientGasWanted => Feemarket.endBlock gasConsumed transientGasWanted

/-! ## What one call does -/

theorem run_setBaseFee {baseFee : Int} (h : baseFee.natAbs < 2 ^ 256) (s : FeemarketStore) :
    (setBaseFee baseFee).run s = .ok () { s with params := { s.params with baseFee := baseFee } } := by
  simp only [setBaseFee, newIntFromBigInt_of_lt h, run_fromExcept_ok_bind]
  rfl

theorem commit_beginBlock (blockHeight : Int64) (maxGas : Option Int64) (s : FeemarketStore) :
    commit (beginBlock blockHeight maxGas) s = s ∨ ∃ fee,
      calculateBaseFee s.params blockHeight maxGas s.blockGasWanted = .ok (some fee) ∧
      commit (beginBlock blockHeight maxGas) s =
        { s with params := { s.params with baseFee := fee } } := by
  unfold commit beginBlock
  rw [run_get_bind]
  cases hcalc : calculateBaseFee s.params blockHeight maxGas s.blockGasWanted with
  | error e => exact .inl rfl
  | ok r =>
    cases r with
    | none => exact .inl rfl
    | some fee =>
      -- a base fee past 256 bits panics in `SetBaseFee`, before the write
      by_cases hfits : fee.natAbs < 2 ^ 256
      · refine .inr ⟨fee, rfl, ?_⟩
        rw [run_fromExcept_ok_bind]
        dsimp only
        rw [run_setBaseFee hfits]
      · have herr : newIntFromBigInt fee = .error (.panic "NewIntFromBigInt() out of bound") :=
          if_pos (Nat.lt_size.2 (not_lt.1 hfits))
        left
        simp only [run_fromExcept_ok_bind, setBaseFee, herr]
        rfl

theorem truncateInt_updatedGasWanted {p : Params} (hv : p.Valid) {gasConsumed gasWanted : Nat}
    (hconsumed : gasConsumed < 2 ^ 63) (hwanted : gasWanted < 2 ^ 63) :
    0 ≤ (legacyMaxDec ⟨gasWanted * p.minGasMultiplier.i⟩ (legacyNewDec gasConsumed)).truncateInt ∧
      (legacyMaxDec ⟨gasWanted * p.minGasMultiplier.i⟩ (legacyNewDec gasConsumed)).truncateInt <
        2 ^ 63 := by
  unfold legacyMaxDec
  split
  · -- the gas used is the larger
    rw [truncateInt_legacyNewDec]
    omega
  · -- the limited gas wanted is the larger
    have hle := truncateInt_newDec_mul_le (Int.natCast_nonneg gasWanted) hv.minGasMultiplier_le_one
    have h₀ := truncateInt_nonneg (Int.mul_nonneg (Int.natCast_nonneg gasWanted)
      hv.minGasMultiplier_nonneg)
    omega

theorem commit_endBlock {s : FeemarketStore} (hv : s.params.Valid) (gasConsumed : Option UInt64)
    (transientGasWanted : UInt64) :
    commit (endBlock gasConsumed transientGasWanted) s = s ∨ ∃ gasWanted : UInt64,
      gasWanted.toNat < 2 ^ 63 ∧
      commit (endBlock gasConsumed transientGasWanted) s = { s with blockGasWanted := gasWanted } := by
  cases gasConsumed with
  | none => exact .inl rfl
  | some gasConsumed =>
    by_cases hwanted : 2 ^ 63 ≤ transientGasWanted.toNat
    · left
      simp only [commit, endBlock, if_pos hwanted]
      rfl
    by_cases hconsumed : 2 ^ 63 ≤ gasConsumed.toNat
    · left
      simp only [commit, endBlock, if_neg hwanted, if_pos hconsumed]
      rfl
    -- the product is exact and far within `maxDecBitLen`
    have hw : transientGasWanted.toNat < 2 ^ 63 := by omega
    have hc : gasConsumed.toNat < 2 ^ 63 := by omega
    have hprod : ((transientGasWanted.toNat : Int) * s.params.minGasMultiplier.i).natAbs <
        2 ^ maxDecBitLen := by
      have hm : s.params.minGasMultiplier.i.natAbs ≤ 10 ^ 18 := by
        have h₁ := hv.minGasMultiplier_le_one
        have h₀ := hv.minGasMultiplier_nonneg
        have : precisionReuse = 10 ^ 18 := rfl
        omega
      have hle := Nat.mul_le_mul_left transientGasWanted.toNat hm
      have hbits : maxDecBitLen = 316 := rfl
      rw [Int.natAbs_mul, Int.natAbs_natCast, hbits]
      omega
    obtain ⟨h₀, h₁⟩ := truncateInt_updatedGasWanted hv hc hw
    have hu := intUint64_of_lt h₀ (by omega)
    right
    simp only [commit, endBlock, if_neg hwanted, if_neg hconsumed, run_get_bind,
      legacyNewDec_mul _ _ hprod, run_fromExcept_ok_bind, hu]
    refine ⟨_, ?_, rfl⟩
    rw [UInt64.toNat_ofNat_of_lt' (by rw [UInt64.size]; omega)]
    omega

/-! ## Runs of the hooks -/

/-- What the hooks keep of the store. -/
structure FeemarketInv (s : FeemarketStore) : Prop where
  params_valid : s.params.Valid
  blockGasWanted_lt : s.blockGasWanted.toNat < 2 ^ 63

/-- The base fee is at or above the truncated minimum gas price. -/
def BaseFeeFloor (s : FeemarketStore) : Prop :=
  s.params.minGasPrice.truncateInt ≤ s.params.baseFee

theorem FeemarketInv.commit_run {s : FeemarketStore} (h : FeemarketInv s) (call : FeemarketCall) :
    FeemarketInv (commit call.run s) ∧ (BaseFeeFloor s → BaseFeeFloor (commit call.run s)) := by
  cases call with
  | beginBlock blockHeight maxGas =>
    rcases commit_beginBlock blockHeight maxGas s with heq | ⟨fee, hcalc, heq⟩
    · rw [FeemarketCall.run, heq]
      exact ⟨h, id⟩
    · -- the new base fee keeps `Validate` and the floor
      obtain ⟨hnonneg, hmin⟩ := calculateBaseFee_some h.params_valid hcalc
      rw [FeemarketCall.run, heq]
      exact ⟨⟨{ h.params_valid with baseFee_nonneg := hnonneg }, h.blockGasWanted_lt⟩, hmin⟩
  | endBlock gasConsumed transientGasWanted =>
    rcases commit_endBlock h.params_valid gasConsumed transientGasWanted with heq | ⟨g, hg, heq⟩
    · rw [FeemarketCall.run, heq]
      exact ⟨h, id⟩
    · rw [FeemarketCall.run, heq]
      exact ⟨⟨h.params_valid, hg⟩, id⟩

/-- Every run of the block hooks, each committed or reverted, from a store whose parameters pass
`Validate` and whose gas wanted fits `int64`, ends in such a store; a base fee at or above the
truncated minimum gas price stays there. -/
theorem feemarketInv_runAll (calls : List FeemarketCall) {s : FeemarketStore}
    (h : FeemarketInv s) :
    FeemarketInv (runAll FeemarketCall.run calls s) ∧
      (BaseFeeFloor s → BaseFeeFloor (runAll FeemarketCall.run calls s)) := by
  refine ⟨runAll_induction FeemarketCall.run (A := fun _ => True) (I := FeemarketInv)
    (fun call _ s h => (h.commit_run call).1) calls (fun _ _ => trivial) s h, fun hfloor => ?_⟩
  -- the floor is carried together with the invariant
  have hboth := runAll_induction FeemarketCall.run (A := fun _ => True)
    (I := fun s => FeemarketInv s ∧ BaseFeeFloor s)
    (fun call _ s h => ⟨(h.1.commit_run call).1, (h.1.commit_run call).2 h.2⟩) calls
    (fun _ _ => trivial) s ⟨h, hfloor⟩
  exact hboth.2

end Feemarket
end Mezod
