import Mezod.Bridge.Abci.Proposal
import Mezod.Bridge.Keeper.Runs

/-! # The bridge pre-blocker (`x/bridge/abci/preblock.go`)

`FinalizeBlock` runs the pre-blockers before the transactions of a block. The bridge's first
processes the mature triparty requests, and then hands the events of the block's injected
transaction to `AcceptAssetsLocked`, which mints them and moves the sequence tip. An error of a
pre-blocker fails `FinalizeBlock`: the block the validators decided cannot be executed, and the
chain stops at it.

So `ProcessProposal` has to make every check of `AcceptAssetsLocked` on the same events before it
lets a block through. It checks that they follow the tip and that they are `Equal` to the
canonical events it recreates, which are valid. `Equal` compares tokens by `HexToAddress`,
though, which takes any text, while `IsValid` wants each token to be a hex address.
`preBlocker_of_processProposal` says what that leaves: the pre-blocker of an accepted block is
`AcceptAssetsLocked` on its non-empty events, from the tip that `ProcessProposal` saw, and their
validity check passes exactly when every injected token is a hex address.

`Keeper.bridgeKeeper` is the keeper model behind the `BridgeKeeper` interface of the handlers, in
the context of a block; the triparty processing keeps the AssetsLocked tip (`Keeper.processTripartyBridgeRequests_keeps_tip`). -/

namespace Mezod
open Go

/-- The bridge `PreBlockHandler`. The gogoproto codec of the injected tx comes with it. -/
structure PreBlockHandler (σ : Type) where
  keeper : BridgeKeeper σ
  injectedTxProto : Proto InjectedTx

namespace PreBlockHandler
variable {σ : Type} (pbh : PreBlockHandler σ)

/-- `PreBlocker`. The response it returns is empty, so the model returns nothing. -/
def preBlocker (req : RequestFinalizeBlock) : EStateM GoError σ Unit := do
  withContextM "cannot process triparty bridge requests" pbh.keeper.processTripartyBridgeRequests
  match req.txs with
  | [] => throw (.error "empty transaction vector in the block")
  | tx :: _ =>
    -- an empty first transaction is the part of a proposer that injected nothing
    if tx.isEmpty then pure ()
    else match pbh.injectedTxProto.unmarshal tx with
      | .error err => throw (.error ("failed to unmarshal injected tx: " ++ err))
      | .ok injectedTx =>
        withContextM "cannot accept AssetsLocked events"
          (pbh.keeper.acceptAssetsLocked injectedTx.assetsLockedEvents)

variable {pbh} {s s₁ : σ}

theorem run_preBlocker_of_injectedTx {tx : Bytes} {txs : List Bytes} {height : Int64}
    {injectedTx : InjectedTx} (htx : tx ≠ [])
    (hproc : pbh.keeper.processTripartyBridgeRequests.run s = .ok () s₁)
    (hinj : pbh.injectedTxProto.unmarshal tx = .ok injectedTx) :
    (pbh.preBlocker ⟨tx :: txs, height⟩).run s =
      (withContextM "cannot accept AssetsLocked events"
        (pbh.keeper.acceptAssetsLocked injectedTx.assetsLockedEvents)).run s₁ := by
  have hempty : tx.isEmpty = false := by simpa using htx
  unfold preBlocker
  rw [EStateM.run_bind, run_withContextM_of_ok hproc]
  simp only [hempty, Bool.false_eq_true, if_false, hinj]

/-- What a pre-block that returned did: the triparty requests were processed, and then the
block's first transaction was empty, or it held events that `AcceptAssetsLocked` accepted. -/
theorem preBlocker_eq_ok {req : RequestFinalizeBlock} {s' : σ}
    (h : (pbh.preBlocker req).run s = .ok () s') :
    ∃ s₁, pbh.keeper.processTripartyBridgeRequests.run s = .ok () s₁ ∧
      ∃ tx txs, req.txs = tx :: txs ∧
        (tx = [] ∧ s' = s₁ ∨
          ∃ injectedTx, pbh.injectedTxProto.unmarshal tx = .ok injectedTx ∧
            (pbh.keeper.acceptAssetsLocked injectedTx.assetsLockedEvents).run s₁ = .ok () s') := by
  obtain ⟨u, s₁, hproc, h⟩ := EStateM.bind_eq_ok h
  have hproc : pbh.keeper.processTripartyBridgeRequests.run s = .ok () s₁ :=
    run_withContextM_eq_ok.1 hproc
  refine ⟨s₁, hproc, ?_⟩
  -- the rest of the pre-block, by the shape of the block
  rcases hreq : req.txs with _ | ⟨tx, txs⟩
  · simp only [hreq] at h
    cases h
  · simp only [hreq] at h
    refine ⟨tx, txs, rfl, ?_⟩
    by_cases hempty : tx.isEmpty
    · rw [if_pos hempty] at h
      cases h
      exact .inl ⟨List.isEmpty_iff.1 hempty, rfl⟩
    · rw [if_neg hempty] at h
      split at h
      · cases h
      · rename_i injectedTx hinj
        exact .inr ⟨injectedTx, hinj, run_withContextM_eq_ok.1 h⟩

end PreBlockHandler

/-! ## The keeper behind the interface -/

namespace Keeper
variable {ω : Type} (k : Keeper ω)

/-- The keeper as the handlers call it, through the `BridgeKeeper` interface, in the context of a
block at `blockHeight`: `ProcessTripartyBridgeRequests` reads the height off that context. -/
def bridgeKeeper (blockHeight : Int64) : BridgeKeeper (ChainState ω) where
  getAssetsLockedSequenceTip s := s.bridge.assetsLockedSequenceTip
  isBridgeInPaused s := s.bridge.bridgeInPaused
  acceptAssetsLocked := k.acceptAssetsLocked
  processTripartyBridgeRequests := k.processTripartyBridgeRequests blockHeight

/-! ### The triparty processing keeps the AssetsLocked tip

It mints through the bank keeper and calls the controllers back through the EVM, which keeps the
tip by `KeepsAssetsLockedSequenceTip`; its own writes are to the triparty keys. -/

section tip
variable {k} (hevm : k.evmKeeper.KeepsAssetsLockedSequenceTip) (t : Int)
include hevm

theorem issueTripartyCallback_keeps_tip (req : TripartyBridgeRequest) :
    EStateM.Preserves (fun s : ChainState ω => s.bridge.assetsLockedSequenceTip = t)
      (k.issueTripartyCallback req) :=
  KeeperM.preserves_ignoreError (EStateM.preserves_bind KeeperM.preserves_liftExcept fun call =>
    KeeperM.preserves_liftChain fun s s' hcall hs => (hevm call s s' hcall).trans hs)

theorem processTripartyBridgeRequest_keeps_tip (req : TripartyBridgeRequest) :
    EStateM.Preserves (fun s : ChainState ω => s.bridge.assetsLockedSequenceTip = t)
      (k.processTripartyBridgeRequest req) := by
  unfold processTripartyBridgeRequest
  refine EStateM.preserves_bind KeeperM.preserves_getStore fun store => ?_
  split
  · exact EStateM.preserves_pure _
  · exact EStateM.preserves_bind (KeeperM.preserves_withContext (mintBTC_keeps_tip _ _ t))
      fun _ => EStateM.preserves_bind (KeeperM.preserves_modifyStore fun _ h => h) fun _ =>
        issueTripartyCallback_keeps_tip hevm t req

omit hevm in
theorem deleteTripartyBridgeRequest_keeps_tip (sequence : Int) :
    EStateM.Preserves (fun s : ChainState ω => s.bridge.assetsLockedSequenceTip = t)
      (deleteTripartyBridgeRequest sequence) := by
  unfold deleteTripartyBridgeRequest
  refine EStateM.preserves_bind KeeperM.preserves_getStore fun store => ?_
  have hwrite : EStateM.Preserves (fun s : ChainState ω => s.bridge.assetsLockedSequenceTip = t)
      (KeeperM.modifyStore fun b => { b with
        tripartyRequest := Function.update b.tripartyRequest (sequenceKey sequence) none }) :=
    KeeperM.preserves_modifyStore fun _ h => h
  dsimp only
  -- the guard on the request before it throws, or falls through to the write
  split
  · exact EStateM.preserves_bind (EStateM.preserves_throw _) fun _ => hwrite
  · exact hwrite

theorem processTripartyBatch_keeps_tip (blockHeight blockDelay : Int64) :
    ∀ (n : Nat) (seq : Int),
      EStateM.Preserves (fun s : ChainState ω => s.bridge.assetsLockedSequenceTip = t)
        (k.processTripartyBatch blockHeight blockDelay n seq)
  | 0, _ => EStateM.preserves_pure _
  | n + 1, seq => by
    rw [processTripartyBatch]
    refine EStateM.preserves_bind KeeperM.preserves_getStore fun store => ?_
    split
    · exact EStateM.preserves_pure _
    · split
      · exact EStateM.preserves_pure _
      · exact EStateM.preserves_bind (processTripartyBridgeRequest_keeps_tip hevm t _) fun _ =>
          EStateM.preserves_bind
            (KeeperM.preserves_withContext (deleteTripartyBridgeRequest_keeps_tip t _)) fun _ =>
              EStateM.preserves_bind (KeeperM.preserves_modifyStore fun _ h => h) fun _ =>
                processTripartyBatch_keeps_tip blockHeight blockDelay n (seq + 1)

theorem processTripartyBridgeRequests_keeps_tip (blockHeight : Int64) :
    EStateM.Preserves (fun s : ChainState ω => s.bridge.assetsLockedSequenceTip = t)
      (k.processTripartyBridgeRequests blockHeight) := by
  unfold processTripartyBridgeRequests
  refine EStateM.preserves_bind KeeperM.preserves_getStore fun store => ?_
  split
  · exact EStateM.preserves_pure _
  · exact processTripartyBatch_keeps_tip hevm t _ _ _ _

end tip

end Keeper

/-! ## From `ProcessProposal` to the pre-block -/

section accepted
variable {ω : Type} {k : Keeper ω} {height : Int64} {ph : ProposalHandler (ChainState ω)}
  {pbh : PreBlockHandler (ChainState ω)}

/-- The pre-block of a block that `ProcessProposal` accepted with an injected transaction, run
from a state with the tip it was accepted at, such as the one the module manager's pre-blockers
leave: once the triparty requests are processed, it is `AcceptAssetsLocked` on the injected
events, which are not empty and start one past the tip, so that two of its three checks pass;
the third, validity, passes exactly when every injected token is a hex address. -/
theorem preBlocker_of_processProposal (hkeeper : ph.keeper = k.bridgeKeeper height)
    (hpbh : pbh.keeper = k.bridgeKeeper height) (hproto : pbh.injectedTxProto = ph.injectedTxProto)
    (hcodec : ph.assetsLockedExtractor.codec = k.codec)
    (hevm : k.evmKeeper.KeepsAssetsLockedSequenceTip) {rt : Runtime} {s s₀ s₁ : ChainState ω}
    {tx : Bytes} {txs : List Bytes} (htx : tx ≠ [])
    (hacc : ph.processProposalHandler rt s ⟨tx :: txs, height⟩ = .ok .accept)
    (htip₀ : s₀.bridge.assetsLockedSequenceTip = s.bridge.assetsLockedSequenceTip)
    (hproc : (k.processTripartyBridgeRequests height).run s₀ = .ok () s₁) :
    ∃ first rest commitBytes, ph.injectedTxProto.unmarshal tx = .ok ⟨first :: rest, commitBytes⟩ ∧
      (pbh.preBlocker ⟨tx :: txs, height⟩).run s₀ =
        (withContextM "cannot accept AssetsLocked events"
          (k.acceptAssetsLocked (first :: rest))).run s₁ ∧
      first.sequence = some (s₁.bridge.assetsLockedSequenceTip + 1) ∧
      (AssetsLockedEvents.isValid k.codec (first :: rest) ↔
        ∀ e ∈ first :: rest, k.codec.isHexAddress e.token) := by
  obtain ⟨first, rest, commitBytes, extendedCommitInfo, recreated, -, hinj, -, -, hrec, heq, htip⟩ :=
    ph.processProposalHandler_eq_accept htx hacc
  -- the recreated events are canonical, so valid
  have hvalid : AssetsLockedEvents.isValid k.codec recreated := by
    rw [← hcodec]
    exact AssetsLockedExtractor.isValid_canonicalEvents (withContext_eq_ok.1 hrec)
  rw [hcodec] at heq
  have hrun : (pbh.preBlocker ⟨tx :: txs, height⟩).run s₀ =
      (withContextM "cannot accept AssetsLocked events"
        (pbh.keeper.acceptAssetsLocked (first :: rest))).run s₁ :=
    PreBlockHandler.run_preBlocker_of_injectedTx htx (by rw [hpbh]; exact hproc)
      (by rw [hproto]; exact hinj)
  rw [hpbh] at hrun
  -- the triparty processing leaves the tip that `ProcessProposal` read
  have htip₁ : s₁.bridge.assetsLockedSequenceTip = s.bridge.assetsLockedSequenceTip :=
    ((Keeper.processTripartyBridgeRequests_keeps_tip hevm _ height).of_ok rfl hproc).trans htip₀
  rw [hkeeper] at htip
  exact ⟨first, rest, commitBytes, hinj, hrun, htip₁ ▸ htip,
    AssetsLockedEvents.isValid_iff_of_equal heq hvalid⟩

/-- A proposer that injects the canonical event with its token written with two more leading
zeros, which go-ethereum's `HexToAddress` crops and `IsHexAddress` refuses: the validators accept
the block, and its pre-block fails. -/
theorem preBlocker_of_processProposal_otherToken :
    let codec := AddressCodec.goEthereum fun _ => some [1]
    let k := Keeper.idle codec
    let canonical : AssetsLockedEvent :=
      ⟨some 1, "mezo1", some 5, "0x1111111111111111111111111111111111111111"⟩
    let injected : AssetsLockedEvent :=
      ⟨some 1, "mezo1", some 5, "0x001111111111111111111111111111111111111111"⟩
    let ph : ProposalHandler (ChainState Unit) :=
      { keeper := k.bridgeKeeper 10
        bridgeValsConsAddrs := fun _ => [[1]]
        voteExtensionsValidator := fun _ _ _ => .ok ()
        assetsLockedExtractor := ⟨codec, fun b => .ok b, fun _ => .ok ⟨[canonical]⟩⟩
        injectedTxProto := ⟨fun _ => .ok [1], fun _ => .ok ⟨[injected], [2]⟩⟩
        extendedCommitInfoProto :=
          ⟨fun _ => .ok [2], fun _ => .ok ⟨[⟨[1], 10, [3], .commit⟩, ⟨[2], 10, [3], .commit⟩]⟩⟩ }
    let pbh : PreBlockHandler (ChainState Unit) := ⟨k.bridgeKeeper 10, ph.injectedTxProto⟩
    let s : ChainState Unit := ⟨BridgeStore.empty, ()⟩
    ph.processProposalHandler Runtime.insertionOrder s ⟨[[1], [7]], 10⟩ = .ok .accept ∧
      (pbh.preBlocker ⟨[[1], [7]], 10⟩).run s =
        .error (.error "cannot accept AssetsLocked events: invalid AssetsLocked sequence") s := by
  intro codec k canonical injected ph pbh s
  -- the merge sort of the runtime is well-founded recursion, which only the kernel unfolds
  have hacc : ph.processProposalHandler Runtime.insertionOrder s ⟨[[1], [7]], 10⟩ = .ok .accept := by
    decide +kernel
  have hevm : k.evmKeeper.KeepsAssetsLockedSequenceTip := Keeper.idle_keepsAssetsLockedSequenceTip _
  have hproc : (k.processTripartyBridgeRequests 10).run s = .ok () s := rfl
  obtain ⟨first, rest, commitBytes, hinj, hrun, -, -⟩ :=
    @preBlocker_of_processProposal Unit k 10 ph pbh rfl rfl rfl rfl hevm Runtime.insertionOrder s s
      s [1] [[7]] (by decide) hacc rfl hproc
  -- the injected events are the one event with the other token
  have hevents : first :: rest = [injected] := by
    have h := Except.ok.inj hinj
    injection h with h
    exact h.symm
  rw [hevents] at hrun
  refine ⟨hacc, ?_⟩
  rw [hrun, run_withContextM_of_error
    (k.run_acceptAssetsLocked_of_isValid_eq_false (by decide +kernel) s)]
  rfl

end accepted

end Mezod
