import Mathlib.Data.Nat.Log
import Mathlib.Order.Bounds.Defs
import Mezod.Lib.Go
import Mezod.Lib.Loop

/-! # Gas estimation (`x/evm/keeper/grpc_query.go`, `x/evm/types/utils.go`)

`EstimateGasInternal` looks for the least gas limit at which a message runs, by the binary search
`BinSearch` between `TxGas - 1`, raised to just below the EIP-7623 calldata floor, and a ceiling
taken from the request. The message is run by the closure `executable`, which is a parameter
here: a function of the gas limit that reports a failed run, a response, or an error.

The search computes in `uint64`, its midpoint `(hi + lo) / 2` too. For a ceiling of at most
`2 ^ 63` nothing wraps, the search ends within 64 tests of its condition, and when `executable`
is monotone the estimate is the least gas that suffices (`estimateGasInternal_least`). Above that
the midpoint wraps below `lo`, and a search whose probes all fail never ends
(`estimateGasInternal_maxCeiling`).

The calls before the search that it does not read (`getChainID`, the decoding of `Args` and of
`StateOverride`, `EVMConfig`, `ToMessage`, `GetEthFloorDataGas`, the consensus parameters) are
kept by their outcomes. -/

namespace Mezod
namespace Evm
open Go

/-- `ethparams.TxGas`. -/
def txGas : UInt64 := 21000

inductive Code where
  | invalidArgument
  | internal
  deriving DecidableEq, Repr

def Code.toString : Code → String
  | invalidArgument => "InvalidArgument"
  | internal => "Internal"

/-- `status.Error(code, msg)`, by the text of its `Error()`. -/
def statusError (code : Code) (msg : String) : GoError :=
  .error ("rpc error: code = " ++ code.toString ++ " desc = " ++ msg)

/-- What the closure `executable` returns for one gas limit. -/
inductive ExecResult where
  /-- `SimulateMessage` failed with `ErrIntrinsicGas` or `ErrFloorDataGas`: `(true, nil, nil)`. -/
  | intrinsicGas
  /-- The message ran: `(len(rsp.VmError) > 0, rsp, nil)`, with the response's `VmError` and
  `Ret`. -/
  | response (vmError : String) (ret : List UInt8)
  /-- Any other error, of the call context, `bumpAccNonce` or `SimulateMessage`:
  `(true, nil, err)`. -/
  | error (err : GoError)
  deriving DecidableEq, Repr

namespace ExecResult

/-- The closure's first result. -/
def failed : ExecResult → Bool
  | intrinsicGas => true
  | response vmError _ => !vmError.isEmpty
  | error _ => true

/-- The closure's error result. -/
def err? : ExecResult → Option GoError
  | error err => some err
  | _ => none

end ExecResult

/-- The part of `EthCallRequest` the estimate reads, with the outcomes of `getChainID` on its
`ChainId` and of decoding its `StateOverride`, and its `Args` as decoded, by their `Gas`. -/
structure EthCallRequest where
  chainID : Except String Unit
  args : Except String (Option UInt64)
  gasCap : UInt64
  stateOverride : Except String Unit

/-- What the keeper and the context give the estimate: the server's gas cap (zero for none), the
block's `MaxGas` (none when the consensus parameters or their block are nil), the outcomes of the
calls that build the message, the calldata floor, the closure `executable`, the status
`statusFromCtxErr` gives once the call context is done (none while it is live) and
`abi.UnpackRevert`. -/
structure Backend where
  ethCallGasCap : UInt64
  consensusParams : Except String (Option Int64)
  evmConfig : Except String Unit
  toMessage : Except String Unit
  floorDataGas : Except String UInt64
  executable : UInt64 → ExecResult
  callCtxErr : Option GoError
  unpackRevert : List UInt8 → Option String

/-- The clamp of the caller's gas cap to the server's; a zero server cap is no cap. -/
def clampGasCap (ethCallGasCap gasCap : UInt64) : UInt64 :=
  if ethCallGasCap ≠ 0 ∧ gasCap > ethCallGasCap then ethCallGasCap else gasCap

/-- The block's gas limit when it is positive, else the gas cap. -/
def blockGasLimit (maxGas : Option Int64) (gasCap : UInt64) : UInt64 :=
  match maxGas with
  | some maxGas => if maxGas > 0 then maxGas.toUInt64 else gasCap
  | none => gasCap

/-- The highest gas limit the estimate may use: `args.Gas` when it is at least `TxGas`, else
what the block allows, which the consensus parameters are queried for. -/
def highestGas (b : Backend) (gasCap : UInt64) (argsGas : Option UInt64) :
    Except GoError UInt64 :=
  match argsGas.filter (txGas ≤ ·) with
  | some gas => .ok gas
  | none => do
    let maxGas ← b.consensusParams.mapError
      fun _ => statusError .internal "failed to get consensus params"
    pure (blockGasLimit maxGas gasCap)

/-- The recap of the highest gas limit by the gas cap. -/
def recapGas (gasCap hi : UInt64) : UInt64 :=
  if gasCap ≠ 0 ∧ hi > gasCap then gasCap else hi

/-- `lo` raised to just below the EIP-7623 floor, when that is below `hi`. -/
def seedLo (floor lo hi : UInt64) : UInt64 :=
  if floor > 0 ∧ floor - 1 < hi ∧ floor - 1 > lo then floor - 1 else lo

/-- `EstimateGasInternal` up to the search: the checks of the request, and the bounds `lo` and
`hi` of the search, `hi` being also the ceiling `gasCap` the result is checked against. -/
def prepare (b : Backend) (req : EthCallRequest) : Except GoError (UInt64 × UInt64) := do
  req.chainID.mapError (statusError .invalidArgument)
  (if req.gasCap < txGas then
      throw (statusError .invalidArgument ("gas cap cannot be lower than " ++ toString txGas))
    else pure ())
  let gasCap := clampGasCap b.ethCallGasCap req.gasCap
  let argsGas ← req.args.mapError (statusError .invalidArgument)
  let hi ← highestGas b gasCap argsGas
  let hi := recapGas gasCap hi
  b.evmConfig.mapError fun _ => statusError .internal "failed to load evm config"
  b.toMessage.mapError (statusError .internal)
  req.stateOverride.mapError
    fun e => statusError .invalidArgument ("invalid state override: " ++ e)
  let floor ← b.floorDataGas.mapError (statusError .internal)
  pure (seedLo floor (txGas - 1) hi, hi)

/-! ## `BinSearch` -/

/-- One iteration of the loop of `BinSearch` on `(lo, hi)`. -/
def binSearchStep (executable : UInt64 → ExecResult) (s : UInt64 × UInt64) :
    Except GoError (UInt64 × UInt64) :=
  let mid := (s.2 + s.1) / 2
  match (executable mid).err? with
  | some err => .error err
  | none => if (executable mid).failed then .ok (mid, s.2) else .ok (s.1, mid)

/-- `BinSearch(lo, hi, executable)`, with fuel for its loop `for lo+1 < hi`. -/
def binSearch (fuel : Nat) (lo hi : UInt64) (executable : UInt64 → ExecResult) :
    Option (Except GoError UInt64) :=
  (forLoop (fun s : UInt64 × UInt64 => s.1 + 1 < s.2) (binSearchStep executable) fuel
    (lo, hi)).map (Except.map Prod.snd)

/-- `types.NewExecErrorWithReason`, by its text. -/
def newExecErrorWithReason (unpackRevert : List UInt8 → Option String) (revertReason : List UInt8) :
    GoError :=
  match unpackRevert revertReason with
  | some reason => .error ("execution reverted: " ++ reason)
  | none => .error "execution reverted"

/-- The error of a run that still fails at the ceiling. -/
def allowanceError (unpackRevert : List UInt8 → Option String) (gasCap : UInt64) :
    ExecResult → GoError
  | .response vmError ret =>
    if vmError ≠ "out of gas" then
      if vmError = "execution reverted" then newExecErrorWithReason unpackRevert ret
      else .error vmError
    else .error ("gas required exceeds allowance (" ++ toString gasCap ++ ")")
  | _ => .error ("gas required exceeds allowance (" ++ toString gasCap ++ ")")

/-- The check after the search: a result at the ceiling is run once more, and rejected if the
message still fails there. -/
def checkAllowance (b : Backend) (gasCap hi : UInt64) : Except GoError UInt64 :=
  if hi = gasCap then
    match (b.executable hi).err? with
    | some err => .error (b.callCtxErr.getD err)
    | none =>
      if (b.executable hi).failed then .error (allowanceError b.unpackRevert gasCap (b.executable hi))
      else .ok hi
  else .ok hi

/-- `EstimateGasInternal`, with fuel for the loop of its search; `none` when that runs out. -/
def estimateGasInternal (fuel : Nat) (b : Backend) (req : EthCallRequest) :
    Option (Except GoError UInt64) :=
  match prepare b req with
  | .error e => some (.error e)
  | .ok (lo, gasCap) =>
    (binSearch fuel lo gasCap b.executable).map fun
      | .error err => .error (b.callCtxErr.getD err)
      | .ok hi => checkAllowance b gasCap hi

/-! ## What the search looks for -/

namespace ExecResult

/-- The message ran at this gas limit. -/
def Succeeds : ExecResult → Prop
  | response vmError _ => vmError = ""
  | _ => False

/-- The closure returned an error, which the estimate passes on. -/
def IsHardError : ExecResult → Prop
  | error _ => True
  | _ => False

instance : DecidablePred Succeeds := fun r => by cases r <;> unfold Succeeds <;> infer_instance

instance : DecidablePred IsHardError := fun r => by
  cases r <;> unfold IsHardError <;> infer_instance

theorem failed_eq_false_iff {r : ExecResult} : r.failed = false ↔ r.Succeeds := by
  cases r <;> simp [failed, Succeeds]

theorem err?_eq_none_iff {r : ExecResult} : r.err? = none ↔ ¬ r.IsHardError := by
  cases r <;> simp [err?, IsHardError]

theorem err?_eq_some_iff {r : ExecResult} {e : GoError} : r.err? = some e ↔ r = .error e := by
  cases r <;> simp [err?]

end ExecResult

/-- The gas limits from `TxGas` to the ceiling at which the message runs. -/
def sufficientGas (executable : UInt64 → ExecResult) (ceiling : UInt64) : Set UInt64 :=
  {g | txGas ≤ g ∧ g ≤ ceiling ∧ (executable g).Succeeds}

/-- The ceiling of the search for the decoded `args.Gas` and the block's `MaxGas`: `args.Gas` if
it is at least `TxGas`, else `MaxGas` if positive, else the gas cap, recapped by the clamped gas
cap. -/
def gasCeiling (ethCallGasCap reqGasCap : UInt64) (argsGas : Option UInt64)
    (maxGas : Option Int64) : UInt64 :=
  let gasCap := clampGasCap ethCallGasCap reqGasCap
  recapGas gasCap ((argsGas.filter (txGas ≤ ·)).getD (blockGasLimit maxGas gasCap))

/-- The calls before the search that the search does not read return without an error. -/
def SetupSucceeds (b : Backend) (req : EthCallRequest) : Prop :=
  req.chainID = .ok () ∧ b.evmConfig = .ok () ∧ b.toMessage = .ok () ∧ req.stateOverride = .ok ()

/-! ## One iteration of `BinSearch` -/

section Search
variable {executable : UInt64 → ExecResult} {C : UInt64}

theorem toNat_midpoint {lo hi : UInt64} (h : lo.toNat + hi.toNat < 2 ^ 64) :
    ((hi + lo) / 2).toNat = (lo.toNat + hi.toNat) / 2 := by
  rw [UInt64.toNat_div, UInt64.toNat_add, Nat.mod_eq_of_lt (by omega), Nat.add_comm]
  rfl

theorem binSearchCond_iff {lo hi : UInt64} (h : lo.toNat < 2 ^ 63) :
    lo + 1 < hi ↔ lo.toNat + 1 < hi.toNat := by
  rw [UInt64.lt_iff_toNat_lt, UInt64.toNat_add, Nat.mod_eq_of_lt (by simp; omega)]
  rfl

theorem binSearchStep_eq_ok {s s' : UInt64 × UInt64} (h : binSearchStep executable s = .ok s') :
    ¬ (executable ((s.2 + s.1) / 2)).IsHardError ∧
      (¬ (executable ((s.2 + s.1) / 2)).Succeeds ∧ s' = ((s.2 + s.1) / 2, s.2) ∨
        (executable ((s.2 + s.1) / 2)).Succeeds ∧ s' = (s.1, (s.2 + s.1) / 2)) := by
  unfold binSearchStep at h
  cases he : (executable ((s.2 + s.1) / 2)).err? with
  | some err => simp [he] at h
  | none =>
    refine ⟨ExecResult.err?_eq_none_iff.1 he, ?_⟩
    cases hf : (executable ((s.2 + s.1) / 2)).failed with
    | true =>
      -- the midpoint failed: it becomes `lo`
      have hfail : ¬ (executable ((s.2 + s.1) / 2)).Succeeds := by
        rw [← ExecResult.failed_eq_false_iff, hf]; decide
      simp only [he, hf, if_true, Except.ok.injEq] at h
      exact .inl ⟨hfail, h.symm⟩
    | false =>
      simp only [he, hf, Bool.false_eq_true, if_false, Except.ok.injEq] at h
      exact .inr ⟨ExecResult.failed_eq_false_iff.1 hf, h.symm⟩

theorem binSearchStep_eq_error {s : UInt64 × UInt64} {e : GoError}
    (h : binSearchStep executable s = .error e) : executable ((s.2 + s.1) / 2) = .error e := by
  unfold binSearchStep at h
  cases he : (executable ((s.2 + s.1) / 2)).err? with
  | some err =>
    simp only [he, Except.error.injEq] at h
    rw [← ExecResult.err?_eq_some_iff, he, h]
  | none =>
    simp only [he] at h
    split at h <;> cases h

/-- The bounds of `BinSearch` between two iterations, under a ceiling `C` of at most `2 ^ 63`:
`lo` is at least `TxGas - 1` and fails, and `hi` is the ceiling, not yet run, or a gas limit above
`lo` at which the message runs. -/
structure SearchInv (executable : UInt64 → ExecResult) (C : UInt64) (s : UInt64 × UInt64) :
    Prop where
  le_lo : txGas - 1 ≤ s.1
  lo_lt : s.1.toNat < 2 ^ 63
  hi_le : s.2 ≤ C
  lo_fails : ¬ (executable s.1).Succeeds
  hi_runs : s.2 = C ∨ s.1 < s.2 ∧ (executable s.2).Succeeds

theorem SearchInv.toNat_midpoint (hC : C.toNat ≤ 2 ^ 63) {lo hi : UInt64}
    (hs : SearchInv executable C (lo, hi)) (hc : lo.toNat + 1 < hi.toNat) :
    ((hi + lo) / 2).toNat = (lo.toNat + hi.toNat) / 2 := by
  have hhi : hi.toNat ≤ C.toNat := UInt64.le_iff_toNat_le.1 hs.hi_le
  exact Evm.toNat_midpoint (by omega)

theorem SearchInv.step (hC : C.toNat ≤ 2 ^ 63) {s s' : UInt64 × UInt64}
    (hs : SearchInv executable C s) (hc : s.1.toNat + 1 < s.2.toNat)
    (hb : binSearchStep executable s = .ok s') : SearchInv executable C s' := by
  obtain ⟨lo, hi⟩ := s
  have hmid := hs.toNat_midpoint hC hc
  have hlo : (txGas - 1).toNat ≤ lo.toNat := UInt64.le_iff_toNat_le.1 hs.le_lo
  have hhi : hi.toNat ≤ C.toNat := UInt64.le_iff_toNat_le.1 hs.hi_le
  obtain ⟨-, ⟨hfail, rfl⟩ | ⟨hrun, rfl⟩⟩ := binSearchStep_eq_ok hb
  · -- the midpoint failed and becomes `lo`; `hi` stays
    refine ⟨UInt64.le_iff_toNat_le.2 (by dsimp only at hc ⊢; omega), by dsimp only at hc ⊢; omega,
      hs.hi_le, hfail, ?_⟩
    rcases hs.hi_runs with h | ⟨-, h⟩
    · exact .inl h
    · exact .inr ⟨UInt64.lt_iff_toNat_lt.2 (by dsimp only at hc ⊢; omega), h⟩
  · -- the midpoint ran and becomes `hi`
    refine ⟨hs.le_lo, hs.lo_lt, UInt64.le_iff_toNat_le.2 (by dsimp only at hc ⊢; omega),
      hs.lo_fails, .inr ⟨UInt64.lt_iff_toNat_lt.2 (by dsimp only at hc ⊢; omega), hrun⟩⟩

theorem SearchInv.clog_width_lt (hC : C.toNat ≤ 2 ^ 63) {s s' : UInt64 × UInt64}
    (hs : SearchInv executable C s) (hc : s.1.toNat + 1 < s.2.toNat)
    (hb : binSearchStep executable s = .ok s') :
    Nat.clog 2 (s'.2.toNat - s'.1.toNat) < Nat.clog 2 (s.2.toNat - s.1.toNat) := by
  obtain ⟨lo, hi⟩ := s
  have hmid := hs.toNat_midpoint hC hc
  dsimp only at hc ⊢
  -- either half of the interval is at most half of it, rounded up
  have hw : s'.2.toNat - s'.1.toNat ≤ (hi.toNat - lo.toNat + 2 - 1) / 2 := by
    obtain ⟨-, ⟨-, rfl⟩ | ⟨-, rfl⟩⟩ := binSearchStep_eq_ok hb <;> dsimp only <;> omega
  calc Nat.clog 2 (s'.2.toNat - s'.1.toNat)
      ≤ Nat.clog 2 ((hi.toNat - lo.toNat + 2 - 1) / 2) := Nat.clog_mono_right 2 hw
    _ < Nat.clog 2 (hi.toNat - lo.toNat) := by
      rw [Nat.clog_of_two_le (by norm_num) (by omega : 2 ≤ hi.toNat - lo.toNat)]
      omega

/-! ## The whole search -/

theorem SearchInv.cond_iff {s : UInt64 × UInt64} (hs : SearchInv executable C s) :
    decide (s.1 + 1 < s.2) = true ↔ s.1.toNat + 1 < s.2.toNat := by
  rw [decide_eq_true_iff, binSearchCond_iff hs.lo_lt]

theorem searchInv_step (hC : C.toNat ≤ 2 ^ 63) :
    ∀ s s', SearchInv executable C s → decide (s.1 + 1 < s.2) = true →
      binSearchStep executable s = .ok s' → SearchInv executable C s' :=
  fun _ _ hs hc hb => hs.step hC (hs.cond_iff.1 hc) hb

/-- Under a ceiling of at most `2 ^ 63` the search ends within 64 tests of its condition. -/
theorem binSearch_isSome (hC : C.toNat ≤ 2 ^ 63) {lo hi : UInt64} {fuel : Nat}
    (hs : SearchInv executable C (lo, hi)) (hfuel : 64 ≤ fuel) :
    (binSearch fuel lo hi executable).isSome := by
  have hhi : hi.toNat ≤ C.toNat := UInt64.le_iff_toNat_le.1 hs.hi_le
  -- the width is at most `2 ^ 63`, so its `clog` is at most 63
  have hμ : Nat.clog 2 (hi.toNat - lo.toNat) < fuel := by
    have := Nat.clog_le_of_le_pow (b := 2) (x := hi.toNat - lo.toNat) (y := 63) (by omega)
    omega
  have hloop := forLoop_isSome (SearchInv executable C) (searchInv_step hC)
    (fun s => Nat.clog 2 (s.2.toNat - s.1.toNat))
    (fun _ _ hs hc hb => hs.clog_width_lt hC (hs.cond_iff.1 hc) hb) hs hμ
  simpa [binSearch] using hloop

theorem binSearch_eq_ok (hC : C.toNat ≤ 2 ^ 63) {lo hi r : UInt64} {fuel : Nat}
    (hs : SearchInv executable C (lo, hi)) (h : binSearch fuel lo hi executable = some (.ok r)) :
    ∃ lo', SearchInv executable C (lo', r) ∧ r.toNat ≤ lo'.toNat + 1 := by
  unfold binSearch at h
  obtain ⟨x, hx, hxr⟩ := Option.map_eq_some_iff.1 h
  cases x with
  | error e => cases hxr
  | ok t =>
    obtain ⟨ht, hc⟩ := forLoop_inv_ok (SearchInv executable C) (searchInv_step hC) hs hx
    obtain rfl : t.2 = r := by simpa [Except.map] using hxr
    refine ⟨t.1, ht, ?_⟩
    have := ht.cond_iff
    simp only [hc, Bool.false_eq_true, false_iff] at this
    omega

theorem binSearch_eq_error (hC : C.toNat ≤ 2 ^ 63) {lo hi : UInt64} {e : GoError} {fuel : Nat}
    (hs : SearchInv executable C (lo, hi)) (h : binSearch fuel lo hi executable = some (.error e)) :
    ∃ g, txGas ≤ g ∧ g ≤ C ∧ executable g = .error e := by
  unfold binSearch at h
  obtain ⟨x, hx, hxr⟩ := Option.map_eq_some_iff.1 h
  cases x with
  | ok t => cases hxr
  | error e' =>
    obtain rfl : e' = e := by simpa [Except.map] using hxr
    obtain ⟨⟨lo', hi'⟩, ht, hc, hb⟩ :=
      forLoop_inv_error (SearchInv executable C) (searchInv_step hC) hs hx
    have hc' := ht.cond_iff.1 hc
    have hmid := ht.toNat_midpoint hC hc'
    have hlo : (txGas - 1).toNat ≤ lo'.toNat := UInt64.le_iff_toNat_le.1 ht.le_lo
    have hhi : hi'.toNat ≤ C.toNat := UInt64.le_iff_toNat_le.1 ht.hi_le
    dsimp only at hc' hmid
    refine ⟨(hi' + lo') / 2, UInt64.le_iff_toNat_le.2 ?_, UInt64.le_iff_toNat_le.2 (by omega),
      binSearchStep_eq_error hb⟩
    have : (txGas - 1).toNat + 1 = txGas.toNat := rfl
    omega

variable (hmono : ∀ g g', g ≤ g' → (executable g).Succeeds → (executable g').Succeeds)
include hmono

/-- Where the search stops at a gas limit that runs, that is the least one that suffices. -/
theorem SearchInv.isLeast {lo hi : UInt64} (hs : SearchInv executable C (lo, hi))
    (hexit : hi.toNat ≤ lo.toNat + 1) (hrun : (executable hi).Succeeds) :
    IsLeast (sufficientGas executable C) hi := by
  have hlo : (txGas - 1).toNat ≤ lo.toNat := UInt64.le_iff_toNat_le.1 hs.le_lo
  have htx : (txGas - 1).toNat + 1 = txGas.toNat := rfl
  -- below a gas that fails, everything fails
  have hbelow : ∀ g, g ≤ lo → ¬ (executable g).Succeeds :=
    fun g hg hg' => hs.lo_fails (hmono g lo hg hg')
  have hlt : lo.toNat < hi.toNat := by
    by_contra hle
    exact hbelow hi (UInt64.le_iff_toNat_le.2 (by omega)) hrun
  refine ⟨⟨UInt64.le_iff_toNat_le.2 (by omega), hs.hi_le, hrun⟩, fun g hgS => ?_⟩
  obtain ⟨-, -, hg⟩ := hgS
  by_contra hgt
  exact hbelow g (UInt64.le_iff_toNat_le.2 (by rw [UInt64.le_iff_toNat_le] at hgt; omega)) hg

theorem sufficientGas_eq_empty (hC : ¬ (executable C).Succeeds) :
    sufficientGas executable C = ∅ :=
  Set.eq_empty_of_forall_notMem fun g ⟨_, hg, hrun⟩ => hC (hmono g C hg hrun)

end Search

theorem ExecResult.err?_eq_none_of_succeeds {r : ExecResult} (h : r.Succeeds) : r.err? = none := by
  cases r <;> simp_all [Succeeds, err?]

/-! ## The steps of `EstimateGasInternal` -/

section Steps
variable {b : Backend} {req : EthCallRequest} {fuel : Nat}

theorem highestGas_eq {maxGas : Option Int64} (hparams : b.consensusParams = .ok maxGas)
    (gasCap : UInt64) (argsGas : Option UInt64) :
    highestGas b gasCap argsGas =
      .ok ((argsGas.filter (txGas ≤ ·)).getD (blockGasLimit maxGas gasCap)) := by
  unfold highestGas
  cases argsGas.filter (txGas ≤ ·) <;> simp [hparams, Except.mapError]

theorem prepare_eq_ok_iff {argsGas : Option UInt64} {maxGas : Option Int64} {floor : UInt64}
    (hcap : txGas ≤ req.gasCap) (hargs : req.args = .ok argsGas)
    (hparams : b.consensusParams = .ok maxGas) (hfloor : b.floorDataGas = .ok floor)
    {p : UInt64 × UInt64} :
    prepare b req = .ok p ↔ SetupSucceeds b req ∧
      p = (seedLo floor (txGas - 1) (gasCeiling b.ethCallGasCap req.gasCap argsGas maxGas),
        gasCeiling b.ethCallGasCap req.gasCap argsGas maxGas) := by
  constructor
  · intro h
    unfold prepare at h
    obtain ⟨_, hchain, h⟩ := except_bind_eq_ok.1 h
    obtain ⟨_, -, h⟩ := except_bind_eq_ok.1 h
    dsimp only at h
    obtain ⟨_, ha, h⟩ := except_bind_eq_ok.1 h
    rw [mapError_eq_ok, hargs] at ha
    cases ha
    obtain ⟨_, hhi, h⟩ := except_bind_eq_ok.1 h
    rw [highestGas_eq hparams] at hhi
    cases hhi
    obtain ⟨_, hevm, h⟩ := except_bind_eq_ok.1 h
    obtain ⟨_, hmsg, h⟩ := except_bind_eq_ok.1 h
    obtain ⟨_, hover, h⟩ := except_bind_eq_ok.1 h
    obtain ⟨_, hfl, h⟩ := except_bind_eq_ok.1 h
    rw [mapError_eq_ok, hfloor] at hfl
    cases hfl
    exact ⟨⟨mapError_eq_ok.1 hchain, mapError_eq_ok.1 hevm, mapError_eq_ok.1 hmsg,
      mapError_eq_ok.1 hover⟩, (Except.ok.inj h).symm⟩
  · rintro ⟨⟨hchain, hevm, hmsg, hover⟩, rfl⟩
    have hlt : ¬ req.gasCap < txGas := UInt64.not_lt.2 hcap
    simp [prepare, hchain, hevm, hmsg, hover, hargs, hfloor, highestGas_eq hparams, hlt,
      gasCeiling, Except.mapError]

theorem estimateGasInternal_of_prepare_error {e : GoError} (hp : prepare b req = .error e) :
    estimateGasInternal fuel b req = some (.error e) := by
  simp [estimateGasInternal, hp]

theorem estimateGasInternal_of_binSearch_none {lo gasCap : UInt64}
    (hp : prepare b req = .ok (lo, gasCap)) (hs : binSearch fuel lo gasCap b.executable = none) :
    estimateGasInternal fuel b req = none := by
  simp [estimateGasInternal, hp, hs]

theorem estimateGasInternal_of_binSearch_error {lo gasCap : UInt64} {err : GoError}
    (hp : prepare b req = .ok (lo, gasCap))
    (hs : binSearch fuel lo gasCap b.executable = some (.error err)) :
    estimateGasInternal fuel b req = some (.error (b.callCtxErr.getD err)) := by
  simp [estimateGasInternal, hp, hs]

theorem estimateGasInternal_of_binSearch_ok {lo gasCap hi : UInt64}
    (hp : prepare b req = .ok (lo, gasCap))
    (hs : binSearch fuel lo gasCap b.executable = some (.ok hi)) :
    estimateGasInternal fuel b req = some (checkAllowance b gasCap hi) := by
  simp [estimateGasInternal, hp, hs]

theorem checkAllowance_eq_ok {gasCap hi g : UInt64} (h : checkAllowance b gasCap hi = .ok g) :
    g = hi ∧ (hi = gasCap → (b.executable hi).Succeeds) := by
  unfold checkAllowance at h
  split at h
  · cases he : (b.executable hi).err? with
    | some err => simp [he] at h
    | none =>
      cases hf : (b.executable hi).failed with
      | true => simp [he, hf] at h
      | false =>
        simp only [he, hf, Bool.false_eq_true, if_false, Except.ok.injEq] at h
        exact ⟨h.symm, fun _ => ExecResult.failed_eq_false_iff.1 hf⟩
  · rename_i hne
    exact ⟨(Except.ok.inj h).symm, fun h' => absurd h' hne⟩

theorem checkAllowance_eq_error {gasCap hi : UInt64} {e : GoError}
    (h : checkAllowance b gasCap hi = .error e) :
    hi = gasCap ∧ ((b.executable hi).IsHardError ∨ ¬ (b.executable hi).Succeeds) := by
  unfold checkAllowance at h
  split at h
  · rename_i heq
    refine ⟨heq, ?_⟩
    cases he : (b.executable hi).err? with
    | some err => exact .inl (by rw [ExecResult.err?_eq_some_iff.1 he]; trivial)
    | none =>
      cases hf : (b.executable hi).failed with
      | true => exact .inr (by rw [← ExecResult.failed_eq_false_iff, hf]; decide)
      | false => simp [he, hf] at h
  · cases h

end Steps

theorem searchInv_start {executable : UInt64 → ExecResult} {C floor : UInt64}
    (hC : C.toNat ≤ 2 ^ 63) (hlow : ∀ g, g < txGas ∨ g < floor → ¬ (executable g).Succeeds) :
    SearchInv executable C (seedLo floor (txGas - 1) C, C) := by
  unfold seedLo
  split
  · -- `lo` is raised to just below the floor, which is below the ceiling
    rename_i h
    obtain ⟨hpos, hltC, hgt⟩ := h
    have hpos' : 0 < floor.toNat := UInt64.lt_iff_toNat_lt.1 hpos
    have hsub : (floor - 1).toNat = floor.toNat - 1 :=
      UInt64.toNat_sub_of_le floor 1 (UInt64.le_iff_toNat_le.2 (by simp; omega))
    have hltC' := UInt64.lt_iff_toNat_lt.1 hltC
    refine ⟨UInt64.le_of_lt hgt, show (floor - 1).toNat < 2 ^ 63 by omega, UInt64.le_refl C,
      hlow _ (.inr (show floor - 1 < floor from UInt64.lt_iff_toNat_lt.2 (by omega))), .inl rfl⟩
  · exact ⟨UInt64.le_refl _, show (txGas - 1).toNat < 2 ^ 63 by decide, UInt64.le_refl C,
      hlow _ (.inl (show txGas - 1 < txGas by decide)), .inl rfl⟩

/-! ## The estimate is the least sufficient gas

The section's assumptions: `args.Gas`, the block's `MaxGas` and the floor are given, the caller's
gas cap is at least `TxGas`, `executable` fails below `TxGas` and below the floor, a gas limit above
one that runs runs too, and the ceiling `C` is at most `2 ^ 63`. -/

section Least
variable {b : Backend} {req : EthCallRequest} {argsGas : Option UInt64} {maxGas : Option Int64}
  {floor C : UInt64} {fuel : Nat}
  (hargs : req.args = .ok argsGas) (hparams : b.consensusParams = .ok maxGas)
  (hfloor : b.floorDataGas = .ok floor) (hcap : txGas ≤ req.gasCap)
  (hCdef : gasCeiling b.ethCallGasCap req.gasCap argsGas maxGas = C) (hC : C.toNat ≤ 2 ^ 63)
  (hlow : ∀ g, g < txGas ∨ g < floor → ¬ (b.executable g).Succeeds)
include hargs hparams hfloor hcap hCdef hC hlow

omit hC hlow in
theorem prepare_eq_ok_start {p : UInt64 × UInt64} (hp : prepare b req = .ok p) :
    p = (seedLo floor (txGas - 1) C, C) := by
  rw [← hCdef]
  exact ((prepare_eq_ok_iff hcap hargs hparams hfloor).1 hp).2

theorem estimateGasInternal_isSome (hfuel : 64 ≤ fuel) :
    (estimateGasInternal fuel b req).isSome := by
  cases hp : prepare b req with
  | error e => rw [estimateGasInternal_of_prepare_error hp]; rfl
  | ok p =>
    obtain rfl := prepare_eq_ok_start hargs hparams hfloor hcap hCdef hp
    obtain ⟨x, hx⟩ := Option.isSome_iff_exists.1
      (binSearch_isSome hC (searchInv_start hC hlow) hfuel)
    cases x with
    | error err => rw [estimateGasInternal_of_binSearch_error hp hx]; rfl
    | ok hi => rw [estimateGasInternal_of_binSearch_ok hp hx]; rfl

/-- What the estimate can give: the error of a call before the search, the error of a probe
between `TxGas` and the ceiling, or the check of where the search stopped. -/
theorem estimateGasInternal_eq_some {r : Except GoError UInt64}
    (h : estimateGasInternal fuel b req = some r) :
    (¬ SetupSucceeds b req ∧ ∃ e, r = .error e) ∨
    (∃ g err, txGas ≤ g ∧ g ≤ C ∧ b.executable g = .error err ∧
      r = .error (b.callCtxErr.getD err)) ∨
    (∃ lo hi, SearchInv b.executable C (lo, hi) ∧ hi.toNat ≤ lo.toNat + 1 ∧
      r = checkAllowance b C hi) := by
  cases hp : prepare b req with
  | error e =>
    refine .inl ⟨fun hset => ?_, e, ?_⟩
    · have hok := (prepare_eq_ok_iff hcap hargs hparams hfloor).2 ⟨hset, rfl⟩
      rw [hp] at hok
      cases hok
    · rw [estimateGasInternal_of_prepare_error hp] at h
      exact (Option.some.inj h).symm
  | ok p =>
    obtain rfl := prepare_eq_ok_start hargs hparams hfloor hcap hCdef hp
    have hs := searchInv_start hC hlow
    cases hr : binSearch fuel (seedLo floor (txGas - 1) C) C b.executable with
    | none =>
      rw [estimateGasInternal_of_binSearch_none hp hr] at h
      cases h
    | some x =>
      cases x with
      | error err =>
        obtain ⟨g, hg₁, hg₂, hg⟩ := binSearch_eq_error hC hs hr
        rw [estimateGasInternal_of_binSearch_error hp hr] at h
        exact .inr (.inl ⟨g, err, hg₁, hg₂, hg, (Option.some.inj h).symm⟩)
      | ok hi =>
        obtain ⟨lo, hs', hexit⟩ := binSearch_eq_ok hC hs hr
        rw [estimateGasInternal_of_binSearch_ok hp hr] at h
        exact .inr (.inr ⟨lo, hi, hs', hexit, (Option.some.inj h).symm⟩)

variable (hmono : ∀ g g', g ≤ g' → (b.executable g).Succeeds → (b.executable g').Succeeds)
include hmono

theorem isLeast_of_estimateGasInternal {g : UInt64}
    (h : estimateGasInternal fuel b req = some (.ok g)) :
    IsLeast (sufficientGas b.executable C) g := by
  rcases estimateGasInternal_eq_some hargs hparams hfloor hcap hCdef hC hlow h with
    ⟨-, e, he⟩ | ⟨_, _, _, _, _, he⟩ | ⟨lo, hi, hs, hexit, hr⟩
  · cases he
  · cases he
  · obtain ⟨rfl, hat⟩ := checkAllowance_eq_ok hr.symm
    -- the result runs: the search ran it, or the check reran it at the ceiling
    have hrun : (b.executable g).Succeeds := by
      rcases hs.hi_runs with hceil | ⟨-, hrun⟩
      · exact hat hceil
      · exact hrun
    exact hs.isLeast hmono hexit hrun

theorem estimateGasInternal_eq_error {e : GoError}
    (h : estimateGasInternal fuel b req = some (.error e)) :
    sufficientGas b.executable C = ∅ ∨
    (∃ g, txGas ≤ g ∧ g ≤ C ∧ (b.executable g).IsHardError) ∨ ¬ SetupSucceeds b req := by
  rcases estimateGasInternal_eq_some hargs hparams hfloor hcap hCdef hC hlow h with
    ⟨hset, -⟩ | ⟨g, err, hg₁, hg₂, hg, -⟩ | ⟨lo, hi, hs, -, hr⟩
  · exact .inr (.inr hset)
  · exact .inr (.inl ⟨g, hg₁, hg₂, by rw [hg]; trivial⟩)
  · obtain ⟨rfl, hhard | hfail⟩ := checkAllowance_eq_error hr.symm
    · -- the rerun at the ceiling returned an error; below `TxGas` nothing is in range anyway
      by_cases htx : txGas ≤ hi
      · exact .inr (.inl ⟨hi, htx, UInt64.le_refl hi, hhard⟩)
      · exact .inl (Set.eq_empty_of_forall_notMem fun g hg => htx (UInt64.le_trans hg.1 hg.2.1))
    · exact .inl (sufficientGas_eq_empty hmono hfail)

/-- With enough fuel, and no call failing with an error, the estimate is the least sufficient
gas. -/
theorem estimateGasInternal_of_isLeast {g : UInt64} (hfuel : 64 ≤ fuel)
    (hset : SetupSucceeds b req)
    (hsoft : ∀ g', txGas ≤ g' → g' ≤ C → ¬ (b.executable g').IsHardError)
    (hg : IsLeast (sufficientGas b.executable C) g) :
    estimateGasInternal fuel b req = some (.ok g) := by
  obtain ⟨r, hr⟩ := Option.isSome_iff_exists.1
    (estimateGasInternal_isSome hargs hparams hfloor hcap hCdef hC hlow hfuel)
  cases r with
  | ok g' =>
    have hg' := isLeast_of_estimateGasInternal hargs hparams hfloor hcap hCdef hC hlow hmono hr
    rw [hr, UInt64.le_antisymm (hg'.2 hg.1) (hg.2 hg'.1)]
  | error e =>
    rcases estimateGasInternal_eq_error hargs hparams hfloor hcap hCdef hC hlow hmono hr with
      hempty | ⟨g', hg₁, hg₂, hhard⟩ | hnot
    · exact absurd (hempty ▸ hg.1) (Set.notMem_empty g)
    · exact absurd hhard (hsoft g' hg₁ hg₂)
    · exact absurd hset hnot

end Least

/-- With `hi` the largest `uint64`, every midpoint `(hi + lo) / 2` wraps to below `2 ^ 63`, so
when every gas limit there fails the search never ends. -/
theorem binSearch_eq_none_of_maxHi {executable : UInt64 → ExecResult} {lo : UInt64} {fuel : Nat}
    (hlo : lo.toNat < 2 ^ 63)
    (hfail : ∀ g : UInt64, g.toNat < 2 ^ 63 →
      (executable g).err? = none ∧ (executable g).failed = true) :
    binSearch fuel lo 18446744073709551615 executable = none := by
  -- the states the loop never leaves: `hi` at the top, `lo` below `2 ^ 63`
  have hstay : ∀ s : UInt64 × UInt64, s.2 = 18446744073709551615 ∧ s.1.toNat < 2 ^ 63 →
      decide (s.1 + 1 < s.2) = true ∧ ∃ s', binSearchStep executable s = .ok s' ∧
        (s'.2 = 18446744073709551615 ∧ s'.1.toNat < 2 ^ 63) := by
    rintro ⟨lo, hi⟩ ⟨rfl, hlo⟩
    dsimp only at hlo ⊢
    have hmid : ((18446744073709551615 + lo) / 2 : UInt64).toNat < 2 ^ 63 := by
      have hsum := (18446744073709551615 + lo : UInt64).toNat_lt
      rw [UInt64.toNat_div]
      exact Nat.div_lt_of_lt_mul (by simpa using hsum)
    obtain ⟨he, hf⟩ := hfail _ hmid
    refine ⟨decide_eq_true ((binSearchCond_iff hlo).2 (by simp; omega)),
      ((18446744073709551615 + lo) / 2, 18446744073709551615), ?_, rfl, hmid⟩
    simp [binSearchStep, he, hf]
  unfold binSearch
  rw [forLoop_eq_none _ hstay ⟨rfl, hlo⟩]
  rfl

end Evm
end Mezod
