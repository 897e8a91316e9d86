import Mezod.Bridge.Keeper.AssetsLocked
import Mezod.Lib.Counters

/-! # Triparty bridge requests (`x/bridge/keeper/triparty.go`)

An allowed controller contract asks, through the bridge precompile, for BTC to be minted to a
recipient: `CreateTripartyBridgeRequest` checks the request and the window capacity, gives it
the next sequence and stores it. At the start of every block `ProcessTripartyBridgeRequests`
walks the pending requests from one past the processed tip, at most `TripartyBatch` of them: it
stops at the first missing or immature request; it checks each mature one again, mints and calls
the controller back when it still passes, and deletes it and moves the processed tip in either
case. The callback runs EVM code, which may come back into the bridge through the precompile.

`TripartyQueue` is the invariant that ties the two tips to the stored requests: the keys under
`TripartyRequestKeyPrefix` are exactly those of the sequences after the processed tip up to the
request tip, and each holds the request of its own sequence. Every keeper operation keeps it,
on success and on error, and so does the EVM by `EvmKeeper.KeepsTripartyQueue`, since what it
can do to the bridge is the precompile's operations. Under it the delete inside the loop never
fails, and a run of the loop moves the processed tip by at most a batch, request by request. -/

namespace Mezod
open Go KeeperM

/-- `TripartyWindowResetBlocks`. -/
def tripartyWindowResetBlocks : UInt64 := 25000

/-- `TripartyBatch`. -/
def tripartyBatch : Nat := 5

/-- `MinTripartyAmount`: 0.01 BTC at 18 decimals. -/
def minTripartyAmount : Int := 10000000000000000

/-- `MaxTripartyCallbackDataLength`. -/
def maxTripartyCallbackDataLength : Nat := 320

/-- `common.Address{}`, as its bytes. -/
def zeroAddress : Bytes := List.replicate 20 0

/-- The pending requests are those after the processed tip up to the request tip, each under the
key of its own sequence; the processed tip is not negative, as `GenesisState.Validate`
requires. -/
structure TripartyQueue (b : BridgeStore) : Prop where
  processed_nonneg : 0 ≤ b.tripartyProcessedSequenceTip
  processed_le : b.tripartyProcessedSequenceTip ≤ b.tripartyRequestSequenceTip
  pending : ∀ n, b.tripartyProcessedSequenceTip < n → n ≤ b.tripartyRequestSequenceTip →
    ∃ r, b.tripartyRequest (sequenceKey n) = some r
  stored : ∀ key r, b.tripartyRequest key = some r →
    key = sequenceKey r.sequence ∧ b.tripartyProcessedSequenceTip < r.sequence ∧
      r.sequence ≤ b.tripartyRequestSequenceTip

/-- The EVM keeps the triparty queue: what a contract call can do to the bridge store is the
precompile's operations, of which only `CreateTripartyBridgeRequest` touches the queue, and it
keeps `TripartyQueue` and moves the request tip up; none writes the processed tip. -/
def EvmKeeper.KeepsTripartyQueue {ω : Type} (evm : EvmKeeper ω) : Prop :=
  ∀ call s s', evm.executeContractCall call s = .ok s' → TripartyQueue s.bridge →
    TripartyQueue s'.bridge ∧
      s'.bridge.tripartyProcessedSequenceTip = s.bridge.tripartyProcessedSequenceTip ∧
      s.bridge.tripartyRequestSequenceTip ≤ s'.bridge.tripartyRequestSequenceTip

theorem Keeper.idle_keepsTripartyQueue (codec : AddressCodec) :
    (Keeper.idle codec).evmKeeper.KeepsTripartyQueue := fun _ _ _ h hq => by
  cases h
  exact ⟨hq, rfl, le_rfl⟩

namespace TripartyQueue
variable {b : BridgeStore}

theorem sequence_eq (hq : TripartyQueue b) {n : Int} {r : TripartyBridgeRequest} (hn : 0 < n)
    (h : b.tripartyRequest (sequenceKey n) = some r) : r.sequence = n := by
  obtain ⟨hk, hlt, -⟩ := hq.stored _ _ h
  have := hq.processed_nonneg
  exact (sequenceKey_inj hn (by omega) hk).symm

theorem absent_of_le (hq : TripartyQueue b) {n : Int} (hn : 0 < n)
    (hle : n ≤ b.tripartyProcessedSequenceTip) : b.tripartyRequest (sequenceKey n) = none := by
  cases h : b.tripartyRequest (sequenceKey n) with
  | none => rfl
  | some r =>
    have hseq := hq.sequence_eq hn h
    have hlt := (hq.stored _ _ h).2.1
    omega

theorem congr {b' : BridgeStore} (hq : TripartyQueue b)
    (hreq : b'.tripartyRequest = b.tripartyRequest)
    (hp : b'.tripartyProcessedSequenceTip = b.tripartyProcessedSequenceTip)
    (hr : b'.tripartyRequestSequenceTip = b.tripartyRequestSequenceTip) : TripartyQueue b' := by
  obtain ⟨h1, h2, h3, h4⟩ := hq
  refine ⟨hp ▸ h1, hp ▸ hr ▸ h2, fun n hn hn' => ?_, fun key r h => ?_⟩
  · rw [hreq]
    exact h3 n (hp ▸ hn) (hr ▸ hn')
  · rw [hreq] at h
    rw [hp, hr]
    exact h4 key r h

theorem create (hq : TripartyQueue b) (req : TripartyBridgeRequest)
    (hseq : req.sequence = b.tripartyRequestSequenceTip + 1) (consumed : Int) :
    TripartyQueue { b with
      tripartyRequestSequenceTip := req.sequence
      tripartyRequest := Function.update b.tripartyRequest (sequenceKey req.sequence) (some req)
      tripartyWindowConsumed := consumed } := by
  have h0 := hq.processed_nonneg
  have hle := hq.processed_le
  refine ⟨h0, by simp only; omega, fun n hn hn' => ?_, fun key r h => ?_⟩
  · dsimp only at hn hn' ⊢
    by_cases hnew : n = req.sequence
    · subst hnew
      exact ⟨req, Function.update_self _ _ _⟩
    · -- an older pending sequence keeps its key, which is not the new one
      have hne : sequenceKey n ≠ sequenceKey req.sequence :=
        fun e => hnew (sequenceKey_inj (by omega) (by omega) e)
      simp only [Function.update_of_ne hne]
      exact hq.pending n hn (by omega)
  · dsimp only at h ⊢
    by_cases hkey : key = sequenceKey req.sequence
    · subst hkey
      simp only [Function.update_self, Option.some.injEq] at h
      subst h
      exact ⟨rfl, by omega, le_rfl⟩
    · simp only [Function.update_of_ne hkey] at h
      obtain ⟨hk, hlt, hle'⟩ := hq.stored key r h
      exact ⟨hk, hlt, by omega⟩

theorem advance (hq : TripartyQueue b) (seq : Int)
    (hseq : seq = b.tripartyProcessedSequenceTip + 1) (hle : seq ≤ b.tripartyRequestSequenceTip) :
    TripartyQueue { b with
      tripartyRequest := Function.update b.tripartyRequest (sequenceKey seq) none
      tripartyProcessedSequenceTip := seq } := by
  have h0 := hq.processed_nonneg
  refine ⟨by simp only; omega, hle, fun n hn hn' => ?_, fun key r h' => ?_⟩
  · dsimp only at hn hn' ⊢
    have hne : sequenceKey n ≠ sequenceKey seq :=
      fun e => by have := sequenceKey_inj (by omega) (by omega) e; omega
    simp only [Function.update_of_ne hne]
    exact hq.pending n (by omega) hn'
  · dsimp only at h' ⊢
    by_cases hkey : key = sequenceKey seq
    · subst hkey
      simp at h'
    · simp only [Function.update_of_ne hkey] at h'
      obtain ⟨hk, hlt, hle'⟩ := hq.stored key r h'
      -- the deleted key was the only one of sequence `seq`
      have hne : r.sequence ≠ seq := fun e => hkey (e ▸ hk)
      exact ⟨hk, by omega, hle'⟩

end TripartyQueue

/-- The queue is well formed, its processed tip is `t`, and its request tip is at least `q`: what
each step inside a round of the loop keeps. -/
def QueueAt {ω : Type} (t q : Int) (s : ChainState ω) : Prop :=
  TripartyQueue s.bridge ∧ s.bridge.tripartyProcessedSequenceTip = t ∧
    q ≤ s.bridge.tripartyRequestSequenceTip

/-- The failures of a round before its delete: a failed mint. -/
def IsTripartyMintError (err : GoError) : Prop :=
  ∃ seq : Int, IsErrorIn ("failed to mint BTC for triparty request " ++ toString seq) err

/-- The request after the processed tip is missing or not yet mature: where the loop stops. -/
def NextNotReady (blockHeight blockDelay : Int64) (b : BridgeStore) : Prop :=
  ∀ req, b.tripartyRequest (sequenceKey (b.tripartyProcessedSequenceTip + 1)) = some req →
    blockHeight < req.blockHeight + blockDelay

/-- What `n` rounds of the loop guarantee, started at processed tip `t` and request tip `q`, of a
run that collects the requests it processes: the queue stays well formed, the processed tip moves
up by at most `n`, the request tip does not go down, a failure is a failed mint, a run that stops
early stops at a request that is missing or not mature, and the requests processed are mature
ones of the sequences the tip walked through, in order. -/
structure BatchPost {ω : Type} (blockHeight blockDelay : Int64) (n : Nat) (t q : Int)
    (r : EStateM.Result GoError (ChainState ω) (List TripartyBridgeRequest)) : Prop where
  queue : TripartyQueue r.finalState.bridge
  tip_ge : t ≤ r.finalState.bridge.tripartyProcessedSequenceTip
  tip_le : r.finalState.bridge.tripartyProcessedSequenceTip ≤ t + n
  requestTip_ge : q ≤ r.finalState.bridge.tripartyRequestSequenceTip
  mint_error : ∀ err s', r = .error err s' → IsTripartyMintError err
  stops : ∀ log s', r = .ok log s' → s'.bridge.tripartyProcessedSequenceTip < t + n →
    NextNotReady blockHeight blockDelay s'.bridge
  processed : ∀ log s', r = .ok log s' →
    log.map (·.sequence) = Sequence.range t (s'.bridge.tripartyProcessedSequenceTip - t).toNat
  mature : ∀ log s', r = .ok log s' → ∀ req ∈ log, ¬ blockHeight < req.blockHeight + blockDelay

namespace BatchPost
variable {ω : Type} {blockHeight blockDelay : Int64} {n : Nat} {t q : Int}

theorem of_stop {s : ChainState ω} (hq : TripartyQueue s.bridge)
    (hstop : 0 < n → NextNotReady blockHeight blockDelay s.bridge) :
    BatchPost blockHeight blockDelay n s.bridge.tripartyProcessedSequenceTip
      s.bridge.tripartyRequestSequenceTip (.ok [] s) where
  queue := hq
  tip_ge := le_rfl
  tip_le := by simp
  requestTip_ge := le_rfl
  mint_error _ _ h := by cases h
  stops _ _ h hlt := by cases h; exact hstop (by omega)
  processed _ _ h := by cases h; simp
  mature _ _ h := by cases h; simp

theorem of_error {err : GoError} {s : ChainState ω} (hs : QueueAt t q s)
    (herr : IsTripartyMintError err) : BatchPost blockHeight blockDelay n t q (.error err s) where
  queue := hs.1
  tip_ge := hs.2.1.ge
  tip_le := by have := hs.2.1; simp only [EStateM.Result.finalState_error]; omega
  requestTip_ge := hs.2.2
  mint_error _ _ h := by cases h; exact herr
  stops _ _ h := by cases h
  processed _ _ h := by cases h
  mature _ _ h := by cases h

theorem succ {q' : Int} {req : TripartyBridgeRequest}
    {r : EStateM.Result GoError (ChainState ω) (List TripartyBridgeRequest)}
    (hp : BatchPost blockHeight blockDelay n (t + 1) q' r) (hq : q ≤ q')
    (hseq : req.sequence = t + 1) (hmature : ¬ blockHeight < req.blockHeight + blockDelay) :
    BatchPost blockHeight blockDelay (n + 1) t q (r.map (req :: ·)) where
  queue := by simpa using hp.queue
  tip_ge := by have := hp.tip_ge; simp only [EStateM.Result.finalState_map]; omega
  tip_le := by have := hp.tip_le; simp only [EStateM.Result.finalState_map]; push_cast; omega
  requestTip_ge := by simpa using hq.trans hp.requestTip_ge
  mint_error err s' h := hp.mint_error err s' ((EStateM.Result.map_eq_error _).1 h)
  stops log s' h hlt := by
    obtain ⟨rest, hr, -⟩ := EStateM.Result.map_eq_ok.1 h
    exact hp.stops rest s' hr (by push_cast at hlt; omega)
  processed log s' h := by
    obtain ⟨rest, hr, rfl⟩ := EStateM.Result.map_eq_ok.1 h
    have hge := hp.tip_ge
    rw [hr, EStateM.Result.finalState_ok] at hge
    -- the walk from `t` is its first step, to `t + 1`, and the walk from there
    obtain ⟨m, hm⟩ : ∃ m : Nat, (s'.bridge.tripartyProcessedSequenceTip - t).toNat = m + 1 :=
      ⟨(s'.bridge.tripartyProcessedSequenceTip - (t + 1)).toNat, by omega⟩
    have hm' : (s'.bridge.tripartyProcessedSequenceTip - (t + 1)).toNat = m := by omega
    rw [List.map_cons, hp.processed rest s' hr, hm, Sequence.range_succ, hseq, hm']
  mature log s' h := by
    obtain ⟨rest, hr, rfl⟩ := EStateM.Result.map_eq_ok.1 h
    intro req' hmem
    rcases List.mem_cons.1 hmem with rfl | hmem
    · exact hmature
    · exact hp.mature rest s' hr req' hmem

end BatchPost

namespace Keeper
variable {ω : Type} (k : Keeper ω)

/-! ## Checks -/

/-- `validateTripartyBridgeRequest`, with the registered errors' texts, at the given store. -/
def validateTripartyBridgeRequest (store : BridgeStore) (recipient : String) (amount : Int)
    (callbackData : Bytes) (controller : String) : Except String Unit :=
  if !k.codec.isHexAddress recipient then
    .error "invalid recipient: invalid hex-encoded EVM address"
  else if k.codec.hexToAddress recipient = zeroAddress then
    .error "zero recipient: zero EVM address"
  -- `blockedAddrs` is keyed by the Bech32 form of `sdk.AccAddress(recipientBytes)`
  else if k.blockedAddrs (k.codec.hexToAddress recipient) then
    .error "triparty recipient is a blocked address"
  else if k.evmKeeper.isCustomPrecompileAddress recipient then
    .error "triparty recipient is a custom precompile"
  else if !k.codec.isHexAddress controller then
    .error "invalid controller: invalid hex-encoded EVM address"
  else if !store.tripartyController (k.codec.hexToAddress controller) then
    .error "controller is not an allowed triparty controller"
  else if callbackData.length > maxTripartyCallbackDataLength then
    .error "triparty callback data exceeds maximum length"
  else if ¬ 0 < amount then
    .error "triparty amount must be positive"
  else if amount < minTripartyAmount then
    .error "triparty amount below minimum"
  else if 0 < store.tripartyPerRequestLimit ∧ amount > store.tripartyPerRequestLimit then
    .error "triparty per-request limit exceeded"
  else .ok ()

/-- `GetTripartyCapacity`: the capacity left in the window, and the height the window ends. -/
def getTripartyCapacity (store : BridgeStore) : Int × UInt64 :=
  (RateLimit.capacity store.tripartyWindowLimit store.tripartyWindowConsumed,
    store.tripartyWindowLastReset + tripartyWindowResetBlocks)

/-- `checkTripartyCapacity`. -/
def checkTripartyCapacity (store : BridgeStore) (amount : Int) : Except String Unit :=
  if amount > (getTripartyCapacity store).1 then .error "triparty window limit exceeded"
  else .ok ()

/-! ## Store accessors -/

/-- `incrementTripartyRequestSequenceTip`: the new tip. -/
def incrementTripartyRequestSequenceTip : KeeperM ω Int := do
  let tip := (← getStore).tripartyRequestSequenceTip + 1
  modifyStore fun b => { b with tripartyRequestSequenceTip := tip }
  return tip

/-- `saveTripartyBridgeRequest`. -/
def saveTripartyBridgeRequest (req : TripartyBridgeRequest) : KeeperM ω Unit :=
  modifyStore fun b =>
    { b with
      tripartyRequest := Function.update b.tripartyRequest (sequenceKey req.sequence) (some req) }

/-- `increaseTripartyWindowConsumed`. -/
def increaseTripartyWindowConsumed (amount : Int) : KeeperM ω Unit :=
  modifyStore fun b => { b with tripartyWindowConsumed := b.tripartyWindowConsumed + amount }

/-- `resetTripartyWindowConsumed`: the consumed amount is deleted and the height recorded. -/
def resetTripartyWindowConsumed (blockHeight : Int64) : KeeperM ω Unit :=
  modifyStore fun b =>
    { b with tripartyWindowConsumed := 0, tripartyWindowLastReset := blockHeight.toUInt64 }

/-- `deleteTripartyBridgeRequest`: refused while the request before it is pending. -/
def deleteTripartyBridgeRequest (sequence : Int) : KeeperM ω Unit := do
  let prev := sequence - 1
  if 0 < prev ∧ ((← getStore).tripartyRequest (sequenceKey prev)).isSome then
    throw (.error ("cannot delete triparty request " ++ toString sequence ++
      ": previous request " ++ toString prev ++ " still pending"))
  modifyStore fun b =>
    { b with tripartyRequest := Function.update b.tripartyRequest (sequenceKey sequence) none }

/-- `setTripartyProcessedSequenceTip`. -/
def setTripartyProcessedSequenceTip (tip : Int) : KeeperM ω Unit :=
  modifyStore fun b => { b with tripartyProcessedSequenceTip := tip }

/-- `setTripartyRequestSequenceTip`. -/
def setTripartyRequestSequenceTip (tip : Int) : KeeperM ω Unit :=
  modifyStore fun b => { b with tripartyRequestSequenceTip := tip }

/-- `setTripartyWindowLastReset`. -/
def setTripartyWindowLastReset (height : UInt64) : KeeperM ω Unit :=
  modifyStore fun b => { b with tripartyWindowLastReset := height }

/-- `increaseTripartyControllerBTCMinted`, keyed by the controller's bytes. -/
def increaseTripartyControllerBTCMinted (controller : Bytes) (amount : Int) : KeeperM ω Unit :=
  modifyStore fun b =>
    let minted := b.tripartyControllerBTCMinted
    { b with
      tripartyControllerBTCMinted := Function.update minted controller (minted controller + amount) }

/-- `AllowTripartyController`. -/
def allowTripartyController (controller : Bytes) (isAllowed : Bool) : KeeperM ω Unit :=
  modifyStore fun b =>
    { b with tripartyController := Function.update b.tripartyController controller isAllowed }

/-- `SetTripartyBlockDelay`. -/
def setTripartyBlockDelay (delay : Int64) : KeeperM ω Unit :=
  if delay < 1 then throw (.error "delay must not be less than 1")
  else modifyStore fun b => { b with tripartyBlockDelay := delay }

/-- `SetTripartyPerRequestLimit`. -/
def setTripartyPerRequestLimit (limit : Int) : KeeperM ω Unit :=
  modifyStore fun b => { b with tripartyPerRequestLimit := limit }

/-- `SetTripartyWindowLimit`. -/
def setTripartyWindowLimit (limit : Int) : KeeperM ω Unit :=
  modifyStore fun b => { b with tripartyWindowLimit := limit }

/-- `SetBridgeInPaused`. -/
def setBridgeInPaused (isPaused : Bool) : KeeperM ω Unit :=
  modifyStore fun b => { b with bridgeInPaused := isPaused }

/-! ## Creating and processing requests -/

/-- `CreateTripartyBridgeRequest` at a block height: the sequence given to the request. -/
def createTripartyBridgeRequest (blockHeight : Int64) (recipient : String) (amount : Int)
    (callbackData : Bytes) (controller : String) : KeeperM ω Int := do
  let store ← getStore
  if store.bridgeInPaused then throw (.error "bridge-in is paused")
  ofExcept (k.validateTripartyBridgeRequest store recipient amount callbackData controller)
  ofExcept (checkTripartyCapacity store amount)
  let seq ← incrementTripartyRequestSequenceTip
  saveTripartyBridgeRequest ⟨seq, blockHeight, recipient, amount, callbackData, controller⟩
  increaseTripartyWindowConsumed amount
  return seq

/-- `issueTripartyCallback`: its failures are logged and dropped. -/
def issueTripartyCallback (req : TripartyBridgeRequest) : KeeperM ω Unit :=
  ignoreError do
    let call ← liftExcept "failed to create triparty callback call"
      (k.calls.newTripartyCallbackCall k.moduleAddress (k.codec.hexToAddress req.controller)
        req.sequence (k.codec.hexToAddress req.recipient) req.amount req.callbackData)
    liftChain "triparty callback failed" (k.evmKeeper.executeContractCall call)

/-- What the loop of `ProcessTripartyBridgeRequests` does with a mature request before deleting
it: a request that fails its checks now is skipped; one that passes is minted, counted for its
controller, and called back. -/
def processTripartyBridgeRequest (req : TripartyBridgeRequest) : KeeperM ω Unit := do
  match k.validateTripartyBridgeRequest (← getStore) req.recipient req.amount req.callbackData
      req.controller with
  | .error _ => pure ()
  | .ok () =>
    withContext ("failed to mint BTC for triparty request " ++ toString req.sequence)
      (k.mintBTC (k.codec.hexToAddress req.recipient) req.amount)
    increaseTripartyControllerBTCMinted (k.codec.hexToAddress req.controller) req.amount
    k.issueTripartyCallback req

/-- The loop of `ProcessTripartyBridgeRequests`, with `n` rounds left, at sequence `seq`. The
maturity test is in `int64`, as the source computes it. -/
def processTripartyBatch (blockHeight blockDelay : Int64) : Nat → Int → KeeperM ω Unit
  | 0, _ => pure ()
  | n + 1, seq => do
    match (← getStore).tripartyRequest (sequenceKey seq) with
    | none => pure ()
    | some req =>
      -- the first immature request ends the batch, so none is processed ahead of it
      if blockHeight < req.blockHeight + blockDelay then pure ()
      else do
        k.processTripartyBridgeRequest req
        withContext ("failed to delete triparty request " ++ toString req.sequence)
          (deleteTripartyBridgeRequest req.sequence)
        setTripartyProcessedSequenceTip seq
        processTripartyBatch blockHeight blockDelay n (seq + 1)

/-- `ProcessTripartyBridgeRequests` at a block height. -/
def processTripartyBridgeRequests (blockHeight : Int64) : KeeperM ω Unit := do
  let store ← getStore
  if store.bridgeInPaused then return
  k.processTripartyBatch blockHeight store.tripartyBlockDelay tripartyBatch
    (store.tripartyProcessedSequenceTip + 1)

/-- The loop of `processTripartyBatch` with the requests it hands to
`processTripartyBridgeRequest` collected, in order: ghost state for the proofs, with the same
writes and failures (`run_processTripartyBatch`). -/
def processTripartyBatchLog (blockHeight blockDelay : Int64) :
    Nat → Int → KeeperM ω (List TripartyBridgeRequest)
  | 0, _ => pure []
  | n + 1, seq => do
    match (← getStore).tripartyRequest (sequenceKey seq) with
    | none => pure []
    | some req =>
      if blockHeight < req.blockHeight + blockDelay then pure []
      else do
        k.processTripartyBridgeRequest req
        withContext ("failed to delete triparty request " ++ toString req.sequence)
          (deleteTripartyBridgeRequest req.sequence)
        setTripartyProcessedSequenceTip seq
        let rest ← processTripartyBatchLog blockHeight blockDelay n (seq + 1)
        return req :: rest

/-- `processTripartyBridgeRequests` with the requests it processes collected. -/
def processTripartyBridgeRequestsLog (blockHeight : Int64) :
    KeeperM ω (List TripartyBridgeRequest) := do
  let store ← getStore
  if store.bridgeInPaused then return []
  k.processTripartyBatchLog blockHeight store.tripartyBlockDelay tripartyBatch
    (store.tripartyProcessedSequenceTip + 1)

/-- `handleTripartyWindowReset` at a block height. -/
def handleTripartyWindowReset (blockHeight : Int64) : KeeperM ω Unit := do
  let store ← getStore
  if RateLimit.windowOver tripartyWindowResetBlocks blockHeight.toUInt64
      store.tripartyWindowLastReset then
    resetTripartyWindowConsumed blockHeight

/-! ## Creating a request -/

section create
variable {k} {s s' : ChainState ω} {blockHeight : Int64} {recipient : String} {amount : Int}
  {callbackData : Bytes} {controller : String}

theorem createTripartyBridgeRequest_eq_ok {seq : Int}
    (h : (k.createTripartyBridgeRequest blockHeight recipient amount callbackData controller).run s =
      .ok seq s') :
    s.bridge.bridgeInPaused = false ∧
    k.validateTripartyBridgeRequest s.bridge recipient amount callbackData controller = .ok () ∧
    checkTripartyCapacity s.bridge amount = .ok () ∧
    seq = s.bridge.tripartyRequestSequenceTip + 1 ∧
    s' = { s with bridge := { s.bridge with
      tripartyRequestSequenceTip := seq
      tripartyRequest := Function.update s.bridge.tripartyRequest (sequenceKey seq)
        (some ⟨seq, blockHeight, recipient, amount, callbackData, controller⟩)
      tripartyWindowConsumed := s.bridge.tripartyWindowConsumed + amount } } := by
  simp only [createTripartyBridgeRequest, EStateM.run_bind, run_getStore] at h
  split at h
  · simp at h
  rename_i hpaused
  cases hv : k.validateTripartyBridgeRequest s.bridge recipient amount callbackData controller with
  | error e => simp [hv] at h
  | ok u =>
    cases hc : checkTripartyCapacity s.bridge amount with
    | error e => simp [hv, hc] at h
    | ok u' =>
      simp [hv, hc, incrementTripartyRequestSequenceTip, saveTripartyBridgeRequest,
        increaseTripartyWindowConsumed] at h
      obtain ⟨rfl, rfl⟩ := h
      exact ⟨by simpa using hpaused, rfl, rfl, rfl, rfl⟩

/-- A request that is refused changes nothing: every check comes before the first write. -/
theorem createTripartyBridgeRequest_eq_error {err : GoError}
    (h : (k.createTripartyBridgeRequest blockHeight recipient amount callbackData controller).run s =
      .error err s') :
    s' = s := by
  simp only [createTripartyBridgeRequest, EStateM.run_bind, run_getStore] at h
  split at h
  · simp at h
    exact h.2.symm
  cases hv : k.validateTripartyBridgeRequest s.bridge recipient amount callbackData controller with
  | error e => simp [hv] at h; exact h.2.symm
  | ok u =>
    cases hc : checkTripartyCapacity s.bridge amount with
    | error e => simp [hv, hc] at h; exact h.2.symm
    | ok u' =>
      simp [hv, hc, incrementTripartyRequestSequenceTip, saveTripartyBridgeRequest,
        increaseTripartyWindowConsumed] at h

end create

/-! ## One round of the loop -/

section round
variable {k}

theorem mintBTC_queueAt (recipient : Bytes) (amount t q : Int) :
    EStateM.Preserves (QueueAt t q) (k.mintBTC recipient amount) :=
  EStateM.preserves_bind (preserves_liftWorld fun _ _ h => h) fun _ =>
    EStateM.preserves_bind (preserves_liftWorld fun _ _ h => h) fun _ =>
      preserves_modifyStore fun _ ⟨hq, ht, hr⟩ => ⟨hq.congr rfl rfl rfl, ht, hr⟩

theorem issueTripartyCallback_queueAt (hevm : k.evmKeeper.KeepsTripartyQueue)
    (req : TripartyBridgeRequest) (t q : Int) :
    EStateM.Preserves (QueueAt t q) (k.issueTripartyCallback req) :=
  preserves_ignoreError (EStateM.preserves_bind preserves_liftExcept fun call =>
    preserves_liftChain fun s s' hcall ⟨hq, ht, hr⟩ =>
      let ⟨hq', ht', hr'⟩ := hevm call s s' hcall hq
      ⟨hq', ht'.trans ht, hr.trans hr'⟩)

theorem processTripartyBridgeRequest_queueAt (hevm : k.evmKeeper.KeepsTripartyQueue)
    (req : TripartyBridgeRequest) (t q : Int) :
    EStateM.Preserves (QueueAt t q) (k.processTripartyBridgeRequest req) := by
  unfold processTripartyBridgeRequest
  refine EStateM.preserves_bind preserves_getStore fun store => ?_
  split
  · exact EStateM.preserves_pure _
  · exact EStateM.preserves_bind (preserves_withContext (mintBTC_queueAt _ _ t q)) fun _ =>
      EStateM.preserves_bind
        (preserves_modifyStore fun _ ⟨hq, ht, hr⟩ => ⟨hq.congr rfl rfl rfl, ht, hr⟩) fun _ =>
          issueTripartyCallback_queueAt hevm req t q

theorem mintBTC_failsWith (recipient : Bytes) (amount : Int) :
    EStateM.FailsWith GoError.IsError (k.mintBTC recipient amount) :=
  EStateM.failsWith_bind ((failsWith_liftWorld _ _).imp fun _ h => h.isError) fun _ =>
    EStateM.failsWith_bind ((failsWith_liftWorld _ _).imp fun _ h => h.isError) fun _ =>
      failsWith_modifyStore _

theorem issueTripartyCallback_failsWith {Q : GoError → Prop} (req : TripartyBridgeRequest) :
    EStateM.FailsWith Q (k.issueTripartyCallback req) :=
  failsWith_ignoreError (EStateM.failsWith_bind ((failsWith_liftExcept _ _).imp fun _ h => h.isError)
    fun _ => (failsWith_liftChain _ _).imp fun _ h => h.isError)

theorem processTripartyBridgeRequest_failsWith (req : TripartyBridgeRequest) :
    EStateM.FailsWith IsTripartyMintError (k.processTripartyBridgeRequest req) := by
  unfold processTripartyBridgeRequest
  refine EStateM.failsWith_bind failsWith_getStore fun store => ?_
  split
  · exact EStateM.failsWith_pure _
  · exact EStateM.failsWith_bind
      ((failsWith_withContext (mintBTC_failsWith _ _)).imp fun _ h => ⟨_, h⟩) fun _ =>
        EStateM.failsWith_bind (failsWith_modifyStore _) fun _ => issueTripartyCallback_failsWith req

theorem run_deleteTripartyBridgeRequest_next {s : ChainState ω} (hq : TripartyQueue s.bridge)
    {seq : Int} (hseq : seq = s.bridge.tripartyProcessedSequenceTip + 1) :
    (deleteTripartyBridgeRequest seq).run s =
      .ok () { s with bridge := { s.bridge with
        tripartyRequest := Function.update s.bridge.tripartyRequest (sequenceKey seq) none } } := by
  have h0 := hq.processed_nonneg
  have habsent : ¬ (0 < seq - 1 ∧ (s.bridge.tripartyRequest (sequenceKey (seq - 1))).isSome) := by
    rintro ⟨hpos, hsome⟩
    rw [hq.absent_of_le hpos (by omega)] at hsome
    exact absurd hsome (by simp)
  simp only [deleteTripartyBridgeRequest, EStateM.run_bind, run_getStore, if_neg habsent]
  rfl

theorem run_processTripartyBatch (blockHeight blockDelay : Int64) :
    ∀ (n : Nat) (seq : Int) (s : ChainState ω),
      (k.processTripartyBatch blockHeight blockDelay n seq).run s =
        ((k.processTripartyBatchLog blockHeight blockDelay n seq).run s).map fun _ => ()
  | 0, _, _ => rfl
  | n + 1, seq, s => by
    simp only [processTripartyBatch, processTripartyBatchLog, bind_pure_comp, EStateM.run_bind,
      run_getStore]
    cases s.bridge.tripartyRequest (sequenceKey seq) with
    | none => rfl
    | some req =>
      simp only
      split
      · rfl
      simp only [EStateM.run_bind]
      cases (k.processTripartyBridgeRequest req).run s with
      | error e s₁ => rfl
      | ok u s₁ =>
        simp only
        cases (withContext ("failed to delete triparty request " ++ toString req.sequence)
            (deleteTripartyBridgeRequest req.sequence) : KeeperM ω Unit).run s₁ with
        | error e s₂ => rfl
        | ok u s₂ =>
          simp only [setTripartyProcessedSequenceTip, run_modifyStore, EStateM.run_map,
            run_processTripartyBatch blockHeight blockDelay n]
          -- forgetting the collected requests forgets the one added in front
          cases (k.processTripartyBatchLog blockHeight blockDelay n (seq + 1)).run _ <;> rfl

/-- The loop lemma, by induction on the rounds left: each round reads the request after the
processed tip, stops at a missing or immature one, and otherwise keeps the queue through the mint
and the callback, deletes it and moves the tip to it. -/
theorem processTripartyBatchLog_post (hevm : k.evmKeeper.KeepsTripartyQueue)
    (blockHeight blockDelay : Int64) :
    ∀ (n : Nat) (t q : Int) (s : ChainState ω), TripartyQueue s.bridge →
      s.bridge.tripartyProcessedSequenceTip = t → s.bridge.tripartyRequestSequenceTip = q →
      BatchPost blockHeight blockDelay n t q
        ((k.processTripartyBatchLog blockHeight blockDelay n (t + 1)).run s)
  | 0, _, _, _, hq, rfl, rfl => BatchPost.of_stop hq (by omega)
  | n + 1, t, q, s, hq, ht, hq' => by
    subst ht hq'
    simp only [processTripartyBatchLog, bind_pure_comp, EStateM.run_bind, run_getStore]
    cases hreq : s.bridge.tripartyRequest (sequenceKey (s.bridge.tripartyProcessedSequenceTip + 1)) with
    | none =>
      -- no request: the loop ends
      exact BatchPost.of_stop hq fun _ req h => by rw [hreq] at h; cases h
    | some req =>
      simp only
      by_cases himm : blockHeight < req.blockHeight + blockDelay
      · -- an immature request: the loop ends before it
        rw [if_pos himm]
        exact BatchPost.of_stop hq fun _ req' h => by
          rw [hreq] at h
          cases h
          exact himm
      rw [if_neg himm]
      simp only [EStateM.run_bind]
      have hreqSeq : req.sequence = s.bridge.tripartyProcessedSequenceTip + 1 :=
        hq.sequence_eq (by have := hq.processed_nonneg; omega) hreq
      have hs : QueueAt s.bridge.tripartyProcessedSequenceTip s.bridge.tripartyRequestSequenceTip s :=
        ⟨hq, rfl, le_rfl⟩
      have hs₁ := processTripartyBridgeRequest_queueAt hevm req _ _ s hs
      cases hrun : (k.processTripartyBridgeRequest req).run s with
      | error err s₁ =>
        rw [hrun, EStateM.Result.finalState_error] at hs₁
        exact BatchPost.of_error hs₁ (processTripartyBridgeRequest_failsWith req s err s₁ hrun)
      | ok u s₁ =>
        rw [hrun, EStateM.Result.finalState_ok] at hs₁
        obtain ⟨hq₁, ht₁, hr₁⟩ := hs₁
        simp only [hreqSeq]
        -- the mint and the callback kept the request, and the delete goes through
        rw [run_withContext_of_ok (run_deleteTripartyBridgeRequest_next hq₁ (by omega))]
        simp only [setTripartyProcessedSequenceTip, run_modifyStore, EStateM.run_map]
        have hle : req.sequence ≤ s.bridge.tripartyRequestSequenceTip := (hq.stored _ _ hreq).2.2
        have hq₂ := hq₁.advance (s.bridge.tripartyProcessedSequenceTip + 1) (by omega) (by omega)
        exact BatchPost.succ (processTripartyBatchLog_post hevm blockHeight blockDelay n _ _ _ hq₂
          rfl rfl) hr₁ hreqSeq himm

theorem run_processTripartyBridgeRequests (blockHeight : Int64) (s : ChainState ω) :
    (k.processTripartyBridgeRequests blockHeight).run s =
      ((k.processTripartyBridgeRequestsLog blockHeight).run s).map fun _ => () := by
  simp only [processTripartyBridgeRequests, processTripartyBridgeRequestsLog, EStateM.run_bind,
    run_getStore]
  cases s.bridge.bridgeInPaused with
  | true => rfl
  | false => exact run_processTripartyBatch _ _ _ _ _

/-- `ProcessTripartyBridgeRequests` skips everything while bridge-in is paused, and otherwise
runs a batch from one past the processed tip. -/
theorem processTripartyBridgeRequestsLog_post (hevm : k.evmKeeper.KeepsTripartyQueue)
    (blockHeight : Int64) {s : ChainState ω} (hq : TripartyQueue s.bridge) :
    (s.bridge.bridgeInPaused = true ∧
        (k.processTripartyBridgeRequestsLog blockHeight).run s = .ok [] s) ∨
      (s.bridge.bridgeInPaused = false ∧
        BatchPost blockHeight s.bridge.tripartyBlockDelay tripartyBatch
          s.bridge.tripartyProcessedSequenceTip s.bridge.tripartyRequestSequenceTip
          ((k.processTripartyBridgeRequestsLog blockHeight).run s)) := by
  simp only [processTripartyBridgeRequestsLog, EStateM.run_bind, run_getStore]
  cases hp : s.bridge.bridgeInPaused with
  | true => exact .inl ⟨rfl, rfl⟩
  | false =>
    exact .inr ⟨rfl, processTripartyBatchLog_post hevm blockHeight _ tripartyBatch _ _ s hq rfl rfl⟩

end round

/-! ## Maturity in `int64`

The loop tests `blockHeight < req.BlockHeight + blockDelay` in `int64`. Both terms are at most
`MaxInt64`, so the sum wraps at most once, and then below zero: a request whose height plus the
delay does not fit in `int64` passes the test at every height at or above its own. -/

section maturity
variable {k}

/-- The `int64` maturity test of a request made at a height `≥ 0`, with a delay `≥ 1`, at a
height at or above the request's. -/
theorem not_lt_add_iff {blockHeight requestHeight blockDelay : Int64} (hreq : 0 ≤ requestHeight)
    (hdelay : 1 ≤ blockDelay) (hh : requestHeight ≤ blockHeight) :
    ¬ blockHeight < requestHeight + blockDelay ↔
      requestHeight.toInt + blockDelay.toInt ≤ blockHeight.toInt ∨
        Int64.maxValue.toInt < requestHeight.toInt + blockDelay.toInt := by
  have hmax : Int64.maxValue.toInt = 2 ^ 63 - 1 := by decide
  rw [Int64.lt_iff_toInt_lt, Int64.toInt_add, hmax]
  rw [Int64.le_iff_toInt_le] at hreq hdelay hh
  have hreq' := Int64.toInt_le requestHeight
  have hdelay' := Int64.toInt_le blockDelay
  rw [hmax] at hreq' hdelay'
  simp only [Int64.toInt_zero, Int64.toInt_one] at hreq hdelay
  -- the sum is below `2 ^ 64`, so it is itself or wrapped once
  dsimp only [Int.bmod]
  split <;> omega

/-- A request that `ProcessTripartyBridgeRequests` processes at a height at or above its own, made
at a height `≥ 0`, has its height plus the delay reached, or that sum does not fit in `int64`. -/
theorem tripartyMaturity_int64 (hevm : k.evmKeeper.KeepsTripartyQueue) {s : ChainState ω}
    (hq : TripartyQueue s.bridge) (hdelay : 1 ≤ s.bridge.tripartyBlockDelay)
    (blockHeight : Int64) {log : List TripartyBridgeRequest} {s' : ChainState ω}
    (hrun : (k.processTripartyBridgeRequestsLog blockHeight).run s = .ok log s') :
    ∀ req ∈ log, 0 ≤ req.blockHeight → req.blockHeight ≤ blockHeight →
      req.blockHeight.toInt + s.bridge.tripartyBlockDelay.toInt ≤ blockHeight.toInt ∨
        Int64.maxValue.toInt < req.blockHeight.toInt + s.bridge.tripartyBlockDelay.toInt := by
  intro req hreq hnonneg hh
  rcases processTripartyBridgeRequestsLog_post hevm blockHeight hq with ⟨-, hr⟩ | ⟨-, hpost⟩
  · -- paused: nothing is processed
    rw [hr] at hrun
    cases hrun
    cases hreq
  · exact (not_lt_add_iff hnonneg hdelay hh).1 (hpost.mature log s' hrun req hreq)

/-- The hypotheses hold at a store holding one request, made at height 1, under the delay
`MaxInt64`; the run at height 1 processes that request, and there the sum does not fit. -/
theorem tripartyMaturity_int64_wrapped :
    let req : TripartyBridgeRequest := ⟨1, 1, "0x1111111111111111111111111111111111111111",
      minTripartyAmount, [], "0x2222222222222222222222222222222222222222"⟩
    let k := Keeper.idle (AddressCodec.goEthereum fun _ => none)
    let s : ChainState Unit := ⟨{ BridgeStore.empty with
      tripartyBlockDelay := Int64.maxValue
      tripartyController := fun c => decide (c = List.replicate 20 0x22)
      tripartyRequest := fun key => if key = sequenceKey 1 then some req else none
      tripartyRequestSequenceTip := 1 }, ()⟩
    k.evmKeeper.KeepsTripartyQueue ∧ TripartyQueue s.bridge ∧ 1 ≤ s.bridge.tripartyBlockDelay ∧
      ∃ s', (k.processTripartyBridgeRequestsLog 1).run s = .ok [req] s' ∧
        (req.blockHeight.toInt + s.bridge.tripartyBlockDelay.toInt ≤ (1 : Int64).toInt ∨
          Int64.maxValue.toInt < req.blockHeight.toInt + s.bridge.tripartyBlockDelay.toInt) := by
  intro req k s
  have hevm : k.evmKeeper.KeepsTripartyQueue := Keeper.idle_keepsTripartyQueue _
  have hq : TripartyQueue s.bridge := by
    refine ⟨le_rfl, zero_le_one, fun n h₀ h₁ => ⟨req, ?_⟩, fun key r h => ?_⟩
    · -- the one pending sequence is 1
      have h₀' : (0 : Int) < n := h₀
      have h₁' : n ≤ 1 := h₁
      obtain rfl : n = 1 := by omega
      simp [s]
    · simp only [s] at h
      split at h
      · cases h
        exact ⟨by assumption, zero_lt_one, le_rfl⟩
      · cases h
  have hrun : (k.processTripartyBridgeRequestsLog 1).run s = .ok [req] _ :=
    EStateM.Result.toExcept_eq_ok.1 (by decide +kernel)
  exact ⟨hevm, hq, by decide, _, hrun,
    tripartyMaturity_int64 hevm hq (by decide) 1 hrun req (List.mem_singleton_self req)
      (by decide) (by decide)⟩

/-- `SetTripartyBlockDelay` accepts `MaxInt64`; a request made at height 1 is then minted at
height 1, though `1 < 1 + MaxInt64`: the `int64` sum wraps to `MinInt64`. -/
theorem tripartyMaturity_maxDelay :
    let req : TripartyBridgeRequest := ⟨1, 1, "0x1111111111111111111111111111111111111111",
      minTripartyAmount, [], "0x2222222222222222222222222222222222222222"⟩
    let k := Keeper.idle (AddressCodec.goEthereum fun _ => none)
    let s₀ : ChainState Unit := ⟨{ BridgeStore.empty with
      tripartyController := fun c => decide (c = List.replicate 20 0x22)
      tripartyRequest := fun key => if key = sequenceKey 1 then some req else none
      tripartyRequestSequenceTip := 1 }, ()⟩
    let s : ChainState Unit := ⟨{ s₀.bridge with tripartyBlockDelay := Int64.maxValue }, ()⟩
    (setTripartyBlockDelay Int64.maxValue : KeeperM Unit Unit).run s₀ = .ok () s ∧
      ((k.processTripartyBridgeRequestsLog 1).run s).toExcept = .ok [req] ∧
      ((k.processTripartyBridgeRequestsLog 1).run s).finalState.bridge.btcMinted = req.amount ∧
      (1 : Int64).toInt < req.blockHeight.toInt + s.bridge.tripartyBlockDelay.toInt := by
  intro req k s₀ s
  exact ⟨rfl, by decide +kernel, by decide +kernel, by decide⟩

end maturity

/-! ## The queue and the window under the other operations -/

section ops
variable {k} {s s' : ChainState ω}

/-- A created request extends the queue by one. -/
theorem createTripartyBridgeRequest_queue {blockHeight : Int64} {recipient : String}
    {amount : Int} {callbackData : Bytes} {controller : String} {seq : Int}
    (h : (k.createTripartyBridgeRequest blockHeight recipient amount callbackData controller).run s =
      .ok seq s')
    (hq : TripartyQueue s.bridge) :
    TripartyQueue s'.bridge ∧
      s'.bridge.tripartyProcessedSequenceTip = s.bridge.tripartyProcessedSequenceTip ∧
      s'.bridge.tripartyRequestSequenceTip = s.bridge.tripartyRequestSequenceTip + 1 := by
  obtain ⟨-, -, -, rfl, rfl⟩ := createTripartyBridgeRequest_eq_ok h
  exact ⟨hq.create ⟨_, blockHeight, recipient, amount, callbackData, controller⟩ rfl _, rfl, rfl⟩

theorem createTripartyBridgeRequest_window {blockHeight : Int64} {recipient : String}
    {amount : Int} {callbackData : Bytes} {controller : String} {seq : Int}
    (h : (k.createTripartyBridgeRequest blockHeight recipient amount callbackData controller).run s =
      .ok seq s') :
    amount ≤ RateLimit.capacity s.bridge.tripartyWindowLimit s.bridge.tripartyWindowConsumed ∧
      s'.bridge.tripartyWindowConsumed = s.bridge.tripartyWindowConsumed + amount ∧
      s'.bridge.tripartyWindowLimit = s.bridge.tripartyWindowLimit ∧
      s'.bridge.tripartyWindowLastReset = s.bridge.tripartyWindowLastReset := by
  obtain ⟨-, -, hc, -, rfl⟩ := createTripartyBridgeRequest_eq_ok h
  refine ⟨?_, rfl, rfl, rfl⟩
  unfold checkTripartyCapacity getTripartyCapacity at hc
  split at hc
  · cases hc
  · omega

theorem run_handleTripartyWindowReset (blockHeight : Int64) (s : ChainState ω) :
    (handleTripartyWindowReset blockHeight : KeeperM ω Unit).run s =
      if RateLimit.windowOver tripartyWindowResetBlocks blockHeight.toUInt64
          s.bridge.tripartyWindowLastReset then
        .ok () { s with bridge := { s.bridge with
          tripartyWindowConsumed := 0, tripartyWindowLastReset := blockHeight.toUInt64 } }
      else .ok () s := by
  simp only [handleTripartyWindowReset, EStateM.run_bind, run_getStore]
  split <;> rfl

end ops

end Keeper

end Mezod
