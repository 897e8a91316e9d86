import Mezod.App.Proposal
import Mezod.Bridge.Abci.PreBlock

/-! # The app-level pre-blocker (`app/abci/preblock.go`)

`FinalizeBlock` runs the module manager's pre-blockers first and then, while vote extensions
are on, the app's sub-handlers in the order of their keys. Each gets the block with the injected
transaction replaced by its own part of it. A sub-handler whose key has no part gets an empty one,
and so do all of them when the first transaction does not read as an `InjectedTx`. The first
error stops the block, with the name of the part in front.

What a sub-handler executes should be what its `ProcessProposal` accepted.
`injectedTxPart_of_processProposal` says it is: after a block that the app's `ProcessProposal`
accepted, the part of each key is empty, or the proposal sub-handler of that key accepted it in
front of the same regular transactions. For the bridge's key that is the premise of the bridge's
`preBlocker_of_processProposal`, which follows the part down to `AcceptAssetsLocked`. -/

namespace Mezod
namespace App
open Go

/-- `IPreBlockHandler`: its `PreBlocker`, on the state of the block's context. -/
abbrev PreBlockSubHandler (σ : Type) := RequestFinalizeBlock → EStateM GoError σ Unit

/-- The app-level `PreBlockHandler`. Its map of sub-handlers is listed in key order, the order
the loop visits them in after `slices.Sort`. -/
structure PreBlockHandler (σ : Type) where
  subHandlers : List (VoteExtensionPart × PreBlockSubHandler σ)
  subHandlers_sorted : OrderedMap.Sorted subHandlers
  consensusParams : σ → ConsensusParams
  injectedTxProto : Proto InjectedTx

end App

/-- The bridge `PreBlockHandler` as a sub-handler. -/
def PreBlockHandler.toPreBlockSubHandler {σ : Type} (pbh : PreBlockHandler σ) :
    App.PreBlockSubHandler σ :=
  pbh.preBlocker

namespace App
open Go

/-- `NewPreBlockHandler`. -/
def newPreBlockHandler {σ : Type} (bridgeSubHandler : Mezod.PreBlockHandler σ)
    (connectSubHandler : PreBlockSubHandler σ) (consensusParams : σ → ConsensusParams)
    (injectedTxProto : Proto InjectedTx) : PreBlockHandler σ where
  subHandlers := [(voteExtensionPartBridge, bridgeSubHandler.toPreBlockSubHandler),
    (voteExtensionPartConnect, connectSubHandler)]
  subHandlers_sorted := by
    simp [OrderedMap.Sorted, voteExtensionPartBridge, voteExtensionPartConnect]
  consensusParams := consensusParams
  injectedTxProto := injectedTxProto

namespace PreBlockHandler
variable {σ : Type} (pbh : PreBlockHandler σ)

/-- The block's transactions as the loop reads them: the injected tx, when the first one reads as
one, and the regular transactions after it; otherwise no injected tx, and all of them. -/
def splitInjectedTx (txs : List Bytes) : Option InjectedTx × List Bytes :=
  match txs with
  | [] => (none, [])
  | tx :: rest =>
    match pbh.injectedTxProto.unmarshal tx with
    | .error _ => (none, tx :: rest)
    | .ok injectedTx => (some injectedTx, rest)

/-- `injectedTx.Parts[uint32(part)]`: nil when there is no injected tx or no part of the key. -/
def injectedTxPart (injectedTx : Option InjectedTx) (part : VoteExtensionPart) : Bytes :=
  match injectedTx with
  | none => []
  | some injectedTx => (injectedTx.parts.lookup part).getD []

/-- One turn of the loop: the sub-handler runs on its part in front of the regular
transactions. -/
def preBlockPart (req : RequestFinalizeBlock) (injectedTx : Option InjectedTx)
    (regularTxs : List Bytes) : VoteExtensionPart × PreBlockSubHandler σ → EStateM GoError σ PUnit
  | (part, subHandler) =>
    withContextM ("pre-blocker for part " ++ part.string ++ " failed")
      (subHandler ⟨injectedTxPart injectedTx part :: regularTxs, req.height⟩)

/-- `PreBlocker(mm)`, with the module manager's pre-blockers as `moduleManagerPreBlock`. The
consensus parameters are those of the block's context, read before anything runs. -/
def preBlocker (moduleManagerPreBlock : EStateM GoError σ Unit) (req : RequestFinalizeBlock) :
    EStateM GoError σ Unit := do
  let consensusParams := pbh.consensusParams (← get)
  moduleManagerPreBlock
  if !isVoteExtensionsEnabled consensusParams req.height then return
  let (injectedTx, regularTxs) := pbh.splitInjectedTx req.txs
  pbh.subHandlers.forM (preBlockPart req injectedTx regularTxs)

variable {pbh} {moduleManagerPreBlock : EStateM GoError σ Unit} {s s₀ : σ}

theorem run_preBlocker_of_enabled {req : RequestFinalizeBlock}
    (hon : isVoteExtensionsEnabled (pbh.consensusParams s) req.height = true)
    (hmm : moduleManagerPreBlock.run s = .ok () s₀) :
    (pbh.preBlocker moduleManagerPreBlock req).run s =
      (pbh.subHandlers.forM (preBlockPart req (pbh.splitInjectedTx req.txs).1
        (pbh.splitInjectedTx req.txs).2)).run s₀ := by
  unfold preBlocker
  rw [EStateM.run_get_bind]
  dsimp only
  rw [EStateM.run_bind, hmm]
  simp only [hon, Bool.not_true, Bool.false_eq_true, if_false]

theorem run_preBlocker_of_disabled {req : RequestFinalizeBlock}
    (hoff : isVoteExtensionsEnabled (pbh.consensusParams s) req.height = false) :
    (pbh.preBlocker moduleManagerPreBlock req).run s = moduleManagerPreBlock.run s := by
  unfold preBlocker
  rw [EStateM.run_get_bind]
  dsimp only
  rw [EStateM.run_bind]
  cases moduleManagerPreBlock.run s with
  | ok u s₀ => simp only [hoff, Bool.not_false, if_true]; rfl
  | error e s₀ => rfl

/-- After a block that the app's `ProcessProposal` accepted with vote extensions on, its first
transaction reads as an `InjectedTx`, and the part that the pre-block hands to the sub-handler of
any key is empty, or was accepted in front of the same regular transactions by the proposal
sub-handler of that key. -/
theorem injectedTxPart_of_processProposal {ph : ProposalHandler σ}
    (hproto : pbh.injectedTxProto = ph.injectedTxProto) {rt : Runtime} {txs : List Bytes}
    {height : Int64} (hon : isVoteExtensionsEnabled (ph.consensusParams s) height = true)
    (hacc : ph.processProposalHandler rt s ⟨txs, height⟩ = .ok .accept) :
    ∃ injectedTx rest, pbh.splitInjectedTx txs = (some injectedTx, rest) ∧
      ∀ part, injectedTxPart (some injectedTx) part = [] ∨
        ∃ subHandler, (part, subHandler) ∈ ph.subHandlers ∧
          subHandler.processProposalHandler rt s
            ⟨injectedTxPart (some injectedTx) part :: rest, height⟩ = .ok .accept := by
  rcases (ph.processProposalHandler_eq_accept_iff rt).1 hacc with hoff |
    ⟨tx, rest, injectedTx, htxs, hinj, -, hparts⟩
  · rw [hon] at hoff
    cases hoff
  have hsplit : pbh.splitInjectedTx txs = (some injectedTx, rest) := by
    dsimp only at htxs
    rw [htxs, splitInjectedTx, hproto, hinj]
  refine ⟨injectedTx, rest, hsplit, fun part => ?_⟩
  -- a key with a part: the part is one of those `ProcessProposal` checked
  cases hpart : injectedTx.parts.lookup part with
  | none => exact .inl (by simp [injectedTxPart, hpart])
  | some partBytes =>
    have hmem : (part, partBytes) ∈ injectedTx.parts := OrderedMap.mem_of_lookup_eq_some hpart
    obtain ⟨subHandler, hsub, hproc⟩ := hparts _ hmem
    refine .inr ⟨subHandler, hsub, ?_⟩
    simpa [injectedTxPart, hpart] using hproc

end PreBlockHandler

end App
end Mezod
