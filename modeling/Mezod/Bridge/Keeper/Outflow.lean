import Mezod.Bridge.Keeper.Triparty

/-! # Bridge-outs and their outflow limits (`x/bridge/keeper/assets_unlocked.go`,
`x/bridge/keeper/outflow_limit.go`)

`SaveAssetsUnlocked` records a bridge-out of a Mezo token to a target chain as the next
`AssetsUnlocked` event, once the bridge-out is not paused, the chain is enabled and the amount
fits the token's outflow capacity; it then charges the amount to the token's current outflow.
`EndBlock` clears every token's outflow once `OutflowResetBlocks` blocks have passed since the
last reset. The source token of an ERC20 bridge-out is found by a scan of the mappings, which
panics on a stored Mezo token that does not decode past its first two characters. Every check,
and that scan, comes before the first write, so a refused bridge-out changes nothing. The outflow
of a token is then a rate-limited counter in the sense of `RateLimit`. -/

namespace Mezod
open Go KeeperM

/-- `OutflowResetBlocks`. -/
def outflowResetBlocks : UInt64 := 25000

/-- `evmtypes.BTCTokenPrecompileAddress`. -/
def btcTokenPrecompileAddress : String := "0x7b7c000000000000000000000000000000000000"

namespace Keeper
variable {ω : Type} (k : Keeper ω)

/-- `GetOutflowCapacity`: the capacity left for the token, and the height it is reset. -/
def getOutflowCapacity (store : BridgeStore) (token : Bytes) : Int × UInt64 :=
  (RateLimit.capacity (store.outflowLimit token) (store.currentOutflow token),
    store.lastOutflowReset + outflowResetBlocks)

/-- `checkOutflowLimit`. -/
def checkOutflowLimit (store : BridgeStore) (token : Bytes) (amount : Int) : Except String Unit :=
  if amount > (getOutflowCapacity store token).1 then .error "outflow limit exceeded" else .ok ()

/-- `increaseCurrentOutflow`. -/
def increaseCurrentOutflow (token : Bytes) (amount : Int) : KeeperM ω Unit :=
  modifyStore fun b =>
    { b with currentOutflow := Function.update b.currentOutflow token (b.currentOutflow token + amount) }

/-- `resetAllOutflows`: every key under `CurrentOutflowKeyPrefix` is deleted. -/
def resetAllOutflows : KeeperM ω Unit :=
  modifyStore fun b => { b with currentOutflow := fun _ => 0 }

/-- `setLastOutflowReset`. -/
def setLastOutflowReset (height : UInt64) : KeeperM ω Unit :=
  modifyStore fun b => { b with lastOutflowReset := height }

/-- `SetOutflowLimit`. -/
def setOutflowLimit (token : Bytes) (limit : Int) : KeeperM ω Unit :=
  modifyStore fun b => { b with outflowLimit := Function.update b.outflowLimit token limit }

/-- `handleOutflowReset` at a block height. -/
def handleOutflowReset (blockHeight : Int64) : KeeperM ω Unit := do
  let currentHeight := blockHeight.toUInt64
  if RateLimit.windowOver outflowResetBlocks currentHeight (← getStore).lastOutflowReset then
    resetAllOutflows
    setLastOutflowReset currentHeight

/-- The loop of `GetERC20TokenMappingFromMezoToken`: the first mapping whose Mezo token, past its
first two characters, decodes to `mezoToken`. `v.MezoToken[2:]` panics on a token shorter than
two characters, and the loop panics on one that does not decode. -/
def findMezoToken (mezoToken : Bytes) : List ERC20TokenMapping →
    Except GoError (Option ERC20TokenMapping)
  | [] => .ok none
  | v :: rest =>
    if v.mezoToken.length < 2 then
      .error (.panic ("runtime error: slice bounds out of range [2:" ++
        toString v.mezoToken.length ++ "]"))
    else
      match Hex.decode (v.mezoToken.toList.drop 2) with
      | (_, some err) =>
        .error (.panic ("invalid mezo token address in state " ++ v.mezoToken ++ ": " ++
          err.toString))
      | (token, none) => if token = mezoToken then .ok (some v) else findMezoToken mezoToken rest

/-- `GetERC20TokenMappingFromMezoToken`, over the mappings in key order. -/
def getERC20TokenMappingFromMezoToken (store : BridgeStore) (mezoToken : Bytes) :
    Except GoError (Option ERC20TokenMapping) :=
  findMezoToken mezoToken (store.erc20TokenMappings.map Prod.snd)

/-- The source-chain token of a bridge-out, empty when the token is unknown. -/
def targetToken (store : BridgeStore) (token : Bytes) : Except GoError String :=
  if k.codec.hexToAddress btcTokenPrecompileAddress = token then
    .ok (k.codec.bytesToHexAddress store.sourceBTCToken)
  else
    match getERC20TokenMappingFromMezoToken store token with
    | .error err => .error err
    | .ok (some mapping) => .ok (k.codec.bytesToHexAddress (k.codec.hexToAddress mapping.sourceToken))
    | .ok none => .ok ""

/-- `SaveAssetsUnlocked` in a block of the given Unix time. -/
def saveAssetsUnlocked (blockTime : Int64) (recipient token sender : Bytes) (amount : Int)
    (chain : UInt8) : KeeperM ω AssetsUnlockedEvent := do
  let store ← getStore
  if store.bridgeOutPaused then throw (.error "bridge-out is paused")
  if !store.bridgeOutChainEnabled chain then
    throw (.error "target chain is not enabled for bridge-outs")
  match checkOutflowLimit store token amount with
  | .error err => throw (.error ("outflow limit check error: [" ++ err ++ "]"))
  | .ok () =>
    match k.targetToken store token with
    | .error err => throw err
    | .ok targetToken =>
    if targetToken.isEmpty then throw (.error ("unknown token " ++ hexEncodeToString token))
    let nextSequence := store.assetsUnlockedSequenceTip + 1
    modifyStore fun b => { b with assetsUnlockedSequenceTip := nextSequence }
    let assetsUnlocked : AssetsUnlockedEvent := ⟨nextSequence, recipient, targetToken,
      k.codec.bytesToHexAddress sender, amount, chain.toUInt32, blockTime.toUInt64.toUInt32⟩
    modifyStore fun b =>
      { b with assetsUnlocked :=
          Function.update b.assetsUnlocked (sequenceKey nextSequence) (some assetsUnlocked) }
    increaseCurrentOutflow token amount
    return assetsUnlocked

/-! ## The outflow counters -/

section outflow
variable {k} {s s' : ChainState ω} {blockTime : Int64} {recipient token sender : Bytes}
  {amount : Int} {chain : UInt8}

/-- A bridge-out that is saved fitted its token's capacity; it is the next event, and it writes
the event, its tip and its token's outflow, and nothing else. -/
theorem saveAssetsUnlocked_eq_ok {event : AssetsUnlockedEvent}
    (h : (k.saveAssetsUnlocked blockTime recipient token sender amount chain).run s =
      .ok event s') :
    amount ≤ RateLimit.capacity (s.bridge.outflowLimit token) (s.bridge.currentOutflow token) ∧
      event.unlockSequence = s.bridge.assetsUnlockedSequenceTip + 1 ∧
      s' = { s with bridge := { s.bridge with
        assetsUnlockedSequenceTip := s.bridge.assetsUnlockedSequenceTip + 1
        assetsUnlocked := Function.update s.bridge.assetsUnlocked
          (sequenceKey (s.bridge.assetsUnlockedSequenceTip + 1)) (some event)
        currentOutflow := Function.update s.bridge.currentOutflow token
          (s.bridge.currentOutflow token + amount) } } := by
  simp only [saveAssetsUnlocked, EStateM.run_bind, run_getStore] at h
  split at h
  · cases h
  split at h
  · cases h
  split at h
  · cases h
  rename_i hc
  split at h
  · cases h
  split at h
  · cases h
  simp [increaseCurrentOutflow] at h
  obtain ⟨rfl, rfl⟩ := h
  refine ⟨?_, rfl, rfl⟩
  unfold checkOutflowLimit getOutflowCapacity at hc
  split at hc
  · cases hc
  · omega

theorem saveAssetsUnlocked_targetToken {event : AssetsUnlockedEvent}
    (h : (k.saveAssetsUnlocked blockTime recipient token sender amount chain).run s =
      .ok event s') : k.targetToken s.bridge token = .ok event.token := by
  simp only [saveAssetsUnlocked, EStateM.run_bind, run_getStore] at h
  split at h
  · cases h
  split at h
  · cases h
  split at h
  · cases h
  split at h
  · cases h
  rename_i targetToken htarget
  split at h
  · cases h
  simp [increaseCurrentOutflow] at h
  rw [htarget, ← h.1]

theorem run_saveAssetsUnlocked {target : String} (hpaused : s.bridge.bridgeOutPaused = false)
    (hchain : s.bridge.bridgeOutChainEnabled chain = true)
    (hlimit : checkOutflowLimit s.bridge token amount = .ok ())
    (htarget : k.targetToken s.bridge token = .ok target) (hne : target.isEmpty = false) :
    ∃ event s', (k.saveAssetsUnlocked blockTime recipient token sender amount chain).run s =
      .ok event s' ∧ event.token = target := by
  simp only [saveAssetsUnlocked, EStateM.run_bind, run_getStore, hpaused, hchain, hlimit,
    htarget, hne, Bool.not_true, Bool.false_eq_true, if_false]
  exact ⟨_, _, rfl, rfl⟩

/-- A refused bridge-out changes nothing. -/
theorem saveAssetsUnlocked_eq_error {err : GoError}
    (h : (k.saveAssetsUnlocked blockTime recipient token sender amount chain).run s =
      .error err s') : s' = s := by
  simp only [saveAssetsUnlocked, EStateM.run_bind, run_getStore] at h
  -- each check throws before the first write
  split at h
  · cases h; rfl
  split at h
  · cases h; rfl
  split at h
  · cases h; rfl
  split at h
  · cases h; rfl
  split at h
  · cases h; rfl
  simp [increaseCurrentOutflow] at h

theorem run_handleOutflowReset (blockHeight : Int64) (s : ChainState ω) :
    (handleOutflowReset blockHeight : KeeperM ω Unit).run s =
      if RateLimit.windowOver outflowResetBlocks blockHeight.toUInt64 s.bridge.lastOutflowReset then
        .ok () { s with bridge := { s.bridge with
          currentOutflow := fun _ => 0, lastOutflowReset := blockHeight.toUInt64 } }
      else .ok () s := by
  simp only [handleOutflowReset, EStateM.run_bind, run_getStore]
  split <;> rfl

end outflow

end Keeper

end Mezod
