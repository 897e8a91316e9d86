import Mezod.Bridge.Keeper.Outflow

/-! # The bridge end-blocker (`x/bridge/keeper/abci.go`)

`EndBlock` asserts, when the BTC supply assertion is enabled, that the bank's supply of the EVM
denomination is what the bridge minted less what it burnt, and panics when it is not; it then
resets the outflow counters and the triparty window when their windows are over. It writes
nothing else: `endBlock_eq_ok` gives the whole store after it, and a failed end-blocker is a
panic that leaves the state as it was. -/

namespace Mezod
open Go KeeperM

/-- `evmtypes.DefaultEVMDenom`. -/
def evmDenom : String := "abtc"

namespace Keeper
variable {ω : Type} (k : Keeper ω)

/-- `verifyBTCSupply`; an `sdk.Coin` prints as its amount followed by its denomination. -/
def verifyBTCSupply (s : ChainState ω) : Except String Unit :=
  let totalSupply := k.bankKeeper.getSupply s.world
  if totalSupply ≠ s.bridge.btcMinted - s.bridge.btcBurnt then
    .error ("invalid asset supply x/bank = " ++ toString totalSupply ++ evmDenom ++
      ", total minted = " ++ toString s.bridge.btcMinted ++ ", total burnt = " ++
      toString s.bridge.btcBurnt)
  else .ok ()

/-- `EndBlock` at a block height. -/
def endBlock (blockHeight : Int64) : KeeperM ω Unit := do
  let s ← get
  if s.bridge.btcSupplyAssertionEnabled then
    panicOnError "inconsistent state between the bridge and mezo" (ofExcept (k.verifyBTCSupply s))
  handleOutflowReset blockHeight
  handleTripartyWindowReset blockHeight

/-- The store after the end-blocker's resets: each counter whose window is over is cleared, and
its window begun at the current height. -/
def afterResets (blockHeight : Int64) (b : BridgeStore) : BridgeStore :=
  let outflowOver :=
    RateLimit.windowOver outflowResetBlocks blockHeight.toUInt64 b.lastOutflowReset
  let tripartyOver :=
    RateLimit.windowOver tripartyWindowResetBlocks blockHeight.toUInt64 b.tripartyWindowLastReset
  { b with
    currentOutflow := if outflowOver then fun _ => 0 else b.currentOutflow
    lastOutflowReset := if outflowOver then blockHeight.toUInt64 else b.lastOutflowReset
    tripartyWindowConsumed := if tripartyOver then 0 else b.tripartyWindowConsumed
    tripartyWindowLastReset := if tripartyOver then blockHeight.toUInt64 else b.tripartyWindowLastReset }

section endBlock
variable {k} {blockHeight : Int64} {s s' : ChainState ω}

theorem run_resets (blockHeight : Int64) (s : ChainState ω) :
    (handleOutflowReset blockHeight >>= fun _ => handleTripartyWindowReset blockHeight :
      KeeperM ω Unit).run s = .ok () { s with bridge := afterResets blockHeight s.bridge } := by
  rw [EStateM.run_bind, run_handleOutflowReset]
  unfold afterResets
  -- each reset is taken or not on its own window; the second reads a field the first keeps
  by_cases ho : RateLimit.windowOver outflowResetBlocks blockHeight.toUInt64
      s.bridge.lastOutflowReset <;>
    by_cases hw : RateLimit.windowOver tripartyWindowResetBlocks blockHeight.toUInt64
      s.bridge.tripartyWindowLastReset <;>
    simp [ho, hw, run_handleTripartyWindowReset]

theorem run_endBlock (blockHeight : Int64) (s : ChainState ω) :
    (k.endBlock blockHeight).run s =
      match k.verifyBTCSupply s with
      | .error msg =>
        if s.bridge.btcSupplyAssertionEnabled then
          .error (.panic ("inconsistent state between the bridge and mezo: " ++ msg)) s
        else .ok () { s with bridge := afterResets blockHeight s.bridge }
      | .ok () => .ok () { s with bridge := afterResets blockHeight s.bridge } := by
  rw [endBlock, EStateM.run_bind, EStateM.run_get]
  dsimp only
  cases k.verifyBTCSupply s with
  | error msg =>
    cases s.bridge.btcSupplyAssertionEnabled
    · exact run_resets blockHeight s
    · rfl
  | ok u =>
    -- a passing assertion writes nothing
    cases s.bridge.btcSupplyAssertionEnabled <;> exact run_resets blockHeight s

/-- An end-blocker that returned made the resets, and nothing else. -/
theorem endBlock_eq_ok (h : (k.endBlock blockHeight).run s = .ok () s') :
    s' = { s with bridge := afterResets blockHeight s.bridge } := by
  rw [run_endBlock] at h
  split at h
  · split at h
    · cases h
    · cases h; rfl
  · cases h; rfl

/-- An end-blocker that failed panicked in its assertion, before any write. -/
theorem endBlock_eq_error {err : GoError} (h : (k.endBlock blockHeight).run s = .error err s') :
    s' = s ∧ ∃ msg, err = .panic ("inconsistent state between the bridge and mezo: " ++ msg) := by
  rw [run_endBlock] at h
  split at h
  · rename_i msg _
    split at h
    · cases h; exact ⟨rfl, msg, rfl⟩
    · cases h
  · cases h

end endBlock

end Keeper

end Mezod
