import Mezod.Bridge.Abci.Extractor

/-! # The bridge proposal handlers (`x/bridge/abci/proposal.go`)

The proposer of a block reads the canonical AssetsLocked events off the last commit's vote
extensions and, when they follow the sequence tip, puts them first in the block as an
`InjectedTx` together with the commit they were read from. Every validator then checks, in
`ProcessProposal`, that the commit's signatures hold and that the events it recreates from the
commit are `Equal` to the injected ones and follow the tip.

The handlers read the state through the `BridgeKeeper` interface and the validator store; the
model keeps them as functions of a state `σ`. A handler that returns a REJECT response together
with an error is modelled by the error: the app-level handler, and baseapp above it, read the
error first. `prepareProposal_processProposal` is the agreement between the two handlers: what
the proposer builds, a validator in the same state accepts, under any runtime on either side.
Gogoproto writes a nil `math.Int` as zero and refuses to read one of more than 256 bits, so the
codecs are taken to read back only events with set integers within that bound, which are the only
ones its `Unmarshal` gives the extractor. -/

namespace Mezod
open Go

/-- `InjectedTx` (`proposal.pb.go`): the canonical events, and the commit they come from. -/
structure InjectedTx where
  assetsLockedEvents : List AssetsLockedEvent
  extendedCommitInfo : Bytes
  deriving DecidableEq, Repr

/-- An `InjectedTx` that gogoproto reads back as it wrote it: its events' integers are set and
within `MaxBitLen`. -/
def InjectedTx.readsBack (tx : InjectedTx) : Bool :=
  tx.assetsLockedEvents.all (·.readsBack)

/-- `BridgeKeeper`, the interface the ABCI handlers call the bridge keeper through, over the
state `σ` of a request's context. -/
structure BridgeKeeper (σ : Type) where
  getAssetsLockedSequenceTip : σ → Int
  isBridgeInPaused : σ → Bool
  acceptAssetsLocked : List AssetsLockedEvent → EStateM GoError σ Unit
  processTripartyBridgeRequests : EStateM GoError σ Unit

/-- The bridge `ProposalHandler`. The gogoproto codecs it calls come with it. -/
structure ProposalHandler (σ : Type) where
  keeper : BridgeKeeper σ
  /-- `valStore.GetValidatorsConsAddrsByPrivilege(ctx, ValidatorPrivilege)`. -/
  bridgeValsConsAddrs : σ → List Bytes
  /-- The `VoteExtensionsValidator` at the context's validator store and chain id. -/
  voteExtensionsValidator : σ → Int64 → ExtendedCommitInfo → Except String Unit
  assetsLockedExtractor : AssetsLockedExtractor
  injectedTxProto : Proto InjectedTx
  extendedCommitInfoProto : Proto ExtendedCommitInfo

namespace ProposalHandler
variable {σ : Type} (ph : ProposalHandler σ)

/-- `CanonicalEvents` at the state of a request, wrapped as the handlers wrap its error. -/
def canonicalEventsAt (rt : Runtime) (s : σ) (context : String)
    (extendedCommitInfo : ExtendedCommitInfo) : Except GoError (List AssetsLockedEvent) :=
  withContext context
    (ph.assetsLockedExtractor.canonicalEvents (ph.bridgeValsConsAddrs s) rt extendedCommitInfo)

/-- `PrepareProposalHandler`: the request's transactions, or the same behind a fresh
`InjectedTx`. -/
def prepareProposalHandler (rt : Runtime) (s : σ) (req : RequestPrepareProposal) :
    Except GoError (List Bytes) :=
  -- while bridge-in is paused the sequence tip stays frozen and nothing is injected
  if ph.keeper.isBridgeInPaused s then .ok req.txs
  else match ph.voteExtensionsValidator s req.height req.localLastCommit with
    | .error err => .error (.error ("failed to validate vote extensions: " ++ err))
    | .ok () =>
      match ph.canonicalEventsAt rt s "failed to determine canonical AssetsLocked events"
          req.localLastCommit with
      | .error e => .error e
      | .ok [] => .ok req.txs
      | .ok (first :: rest) =>
        -- events that do not stick to the tip leave the proposal as it is
        if first.sequence ≠ some (ph.keeper.getAssetsLockedSequenceTip s + 1) then .ok req.txs
        else match ph.extendedCommitInfoProto.marshal req.localLastCommit with
          | .error err => .error (.error ("failed to marshal the extended commit info: " ++ err))
          | .ok extendedCommitInfo =>
            match ph.injectedTxProto.marshal ⟨first :: rest, extendedCommitInfo⟩ with
            | .error err => .error (.error ("failed to marshal injected tx: " ++ err))
            | .ok injectedTxBytes => .ok (injectedTxBytes :: req.txs)

/-- `ProcessProposalHandler`. -/
def processProposalHandler (rt : Runtime) (s : σ) (req : RequestProcessProposal) :
    Except GoError ProposalStatus :=
  match req.txs with
  | [] => .error (.error "empty transaction vector in the proposal")
  | tx :: _ =>
    -- an empty first transaction is the part of a proposer that injected nothing
    if tx.isEmpty then .ok .accept
    else if ph.keeper.isBridgeInPaused s then
      .error (.error "bridge-in is paused; rejecting proposal with injected tx")
    else match ph.injectedTxProto.unmarshal tx with
      | .error err => .error (.error ("failed to unmarshal injected tx: " ++ err))
      | .ok injectedTx =>
        match injectedTx.assetsLockedEvents with
        | [] => .error (.error "injected tx does not contain AssetsLocked events")
        | first :: rest =>
          match ph.extendedCommitInfoProto.unmarshal injectedTx.extendedCommitInfo with
          | .error err =>
            .error (.error ("failed to unmarshal commit info from injected tx: " ++ err))
          | .ok extendedCommitInfo =>
            match ph.voteExtensionsValidator s req.height extendedCommitInfo with
            | .error err =>
              .error (.error ("failed to validate vote extensions from injected tx: " ++ err))
            | .ok () =>
              match ph.canonicalEventsAt rt s "failed to recreate canonical AssetsLocked events"
                  extendedCommitInfo with
              | .error e => .error e
              | .ok recreated =>
                if !AssetsLockedEvents.equal ph.assetsLockedExtractor.codec recreated
                    (first :: rest) then
                  .error (.error ("recreated canonical AssetsLocked events do not match " ++
                    "events from injected tx"))
                else if first.sequence ≠ some (ph.keeper.getAssetsLockedSequenceTip s + 1) then
                  .error (.error ("AssetsLocked events from injected tx do not start " ++
                    "after the current sequence tip"))
                else .ok .accept

/-! ## Spec lemmas -/

@[simp] theorem processProposalHandler_empty (rt : Runtime) (s : σ) (txs : List Bytes)
    (height : Int64) : ph.processProposalHandler rt s ⟨[] :: txs, height⟩ = .ok .accept := rfl

theorem processProposalHandler_accept {rt : Runtime} {s : σ} {tx : Bytes} {txs : List Bytes}
    {height : Int64} {first : AssetsLockedEvent} {rest : List AssetsLockedEvent}
    {commitBytes : Bytes} {extendedCommitInfo : ExtendedCommitInfo}
    {recreated : List AssetsLockedEvent}
    (hpaused : ph.keeper.isBridgeInPaused s = false)
    (htx : ph.injectedTxProto.unmarshal tx = .ok ⟨first :: rest, commitBytes⟩)
    (hcommit : ph.extendedCommitInfoProto.unmarshal commitBytes = .ok extendedCommitInfo)
    (hval : ph.voteExtensionsValidator s height extendedCommitInfo = .ok ())
    (hrec : ph.canonicalEventsAt rt s "failed to recreate canonical AssetsLocked events"
      extendedCommitInfo = .ok recreated)
    (heq : AssetsLockedEvents.equal ph.assetsLockedExtractor.codec recreated (first :: rest))
    (htip : first.sequence = some (ph.keeper.getAssetsLockedSequenceTip s + 1)) :
    ph.processProposalHandler rt s ⟨tx :: txs, height⟩ = .ok .accept := by
  unfold processProposalHandler
  by_cases hempty : tx.isEmpty
  · simp [hempty]
  simp [hempty, hpaused, htx, hcommit, hval, hrec, heq, htip]

/-- The converse: `ProcessProposal` accepts a non-empty injected transaction only after each of
its checks passed. -/
theorem processProposalHandler_eq_accept {rt : Runtime} {s : σ} {tx : Bytes} {txs : List Bytes}
    {height : Int64} (htx : tx ≠ [])
    (h : ph.processProposalHandler rt s ⟨tx :: txs, height⟩ = .ok .accept) :
    ∃ first rest commitBytes extendedCommitInfo recreated,
      ph.keeper.isBridgeInPaused s = false ∧
      ph.injectedTxProto.unmarshal tx = .ok ⟨first :: rest, commitBytes⟩ ∧
      ph.extendedCommitInfoProto.unmarshal commitBytes = .ok extendedCommitInfo ∧
      ph.voteExtensionsValidator s height extendedCommitInfo = .ok () ∧
      ph.canonicalEventsAt rt s "failed to recreate canonical AssetsLocked events"
        extendedCommitInfo = .ok recreated ∧
      AssetsLockedEvents.equal ph.assetsLockedExtractor.codec recreated (first :: rest) ∧
      first.sequence = some (ph.keeper.getAssetsLockedSequenceTip s + 1) := by
  unfold processProposalHandler at h
  dsimp only at h
  rw [if_neg (by simpa using htx)] at h
  -- every check that fails returns an error, so `h` walks down the branch of each that passed
  split at h
  · cases h
  rename_i hpaused
  split at h
  · cases h
  rename_i injectedTx hinj
  split at h
  · cases h
  rename_i first rest hevents
  split at h
  · cases h
  rename_i extendedCommitInfo hcommit
  split at h
  · cases h
  rename_i hval
  split at h
  · cases h
  rename_i recreated hrec
  split at h
  · cases h
  rename_i heq
  split at h
  · cases h
  rename_i htip
  have htx' : ph.injectedTxProto.unmarshal tx =
      .ok ⟨first :: rest, injectedTx.extendedCommitInfo⟩ := by
    rw [hinj, ← hevents]
  exact ⟨first, rest, _, extendedCommitInfo, recreated, by simpa using hpaused, htx', hcommit,
    hval, hrec, by simpa using heq, by simpa using htip⟩

/-- The cases of `PrepareProposal` that return: the request's transactions as they are, or the
same behind an `InjectedTx` of the canonical events, which stick to the tip, and of the
marshalled commit, after the commit's signatures passed. -/
theorem prepareProposalHandler_eq_ok {rt : Runtime} {s : σ} {req : RequestPrepareProposal}
    {txs : List Bytes} (h : ph.prepareProposalHandler rt s req = .ok txs) :
    txs = req.txs ∨
      ∃ first rest commitBytes injectedTxBytes,
        ph.keeper.isBridgeInPaused s = false ∧
        ph.voteExtensionsValidator s req.height req.localLastCommit = .ok () ∧
        ph.canonicalEventsAt rt s "failed to determine canonical AssetsLocked events"
          req.localLastCommit = .ok (first :: rest) ∧
        first.sequence = some (ph.keeper.getAssetsLockedSequenceTip s + 1) ∧
        ph.extendedCommitInfoProto.marshal req.localLastCommit = .ok commitBytes ∧
        ph.injectedTxProto.marshal ⟨first :: rest, commitBytes⟩ = .ok injectedTxBytes ∧
        txs = injectedTxBytes :: req.txs := by
  unfold prepareProposalHandler at h
  split at h
  · exact .inl (Except.ok.inj h).symm
  rename_i hpaused
  split at h
  · cases h
  rename_i hval
  split at h
  · cases h
  · exact .inl (Except.ok.inj h).symm
  rename_i first rest hce
  split at h
  · exact .inl (Except.ok.inj h).symm
  rename_i htip
  split at h
  · cases h
  rename_i commitBytes hcommit
  split at h
  · cases h
  rename_i injectedTxBytes hinj
  exact .inr ⟨first, rest, commitBytes, injectedTxBytes, by simpa using hpaused, hval, hce,
    by simpa using htip, hcommit, hinj, (Except.ok.inj h).symm⟩

theorem processProposalHandler_of_injected (rt rt' : Runtime) {s : σ}
    {req : RequestPrepareProposal}
    (hinjected : ph.injectedTxProto.RoundTripsOn fun tx => tx.readsBack)
    (hcommit : ph.extendedCommitInfoProto.RoundTrips)
    (hwithin : ph.assetsLockedExtractor.UnmarshalsWithinMaxBitLen)
    {first : AssetsLockedEvent} {rest : List AssetsLockedEvent} {commitBytes injectedTxBytes : Bytes}
    (hpaused : ph.keeper.isBridgeInPaused s = false)
    (hval : ph.voteExtensionsValidator s req.height req.localLastCommit = .ok ())
    (hce : ph.canonicalEventsAt rt s "failed to determine canonical AssetsLocked events"
      req.localLastCommit = .ok (first :: rest))
    (htip : first.sequence = some (ph.keeper.getAssetsLockedSequenceTip s + 1))
    (hcm : ph.extendedCommitInfoProto.marshal req.localLastCommit = .ok commitBytes)
    (hinj : ph.injectedTxProto.marshal ⟨first :: rest, commitBytes⟩ = .ok injectedTxBytes)
    (txs : List Bytes) :
    ph.processProposalHandler rt' s ⟨injectedTxBytes :: txs, req.height⟩ = .ok .accept := by
  -- the validator recreates, under its own runtime, events `Equal` to the proposer's
  have hsame : SameOutcome (fun l l' => AssetsLockedEvents.equal ph.assetsLockedExtractor.codec l l')
      (ph.assetsLockedExtractor.canonicalEvents (ph.bridgeValsConsAddrs s) rt req.localLastCommit)
      (ph.assetsLockedExtractor.canonicalEvents (ph.bridgeValsConsAddrs s) rt' req.localLastCommit) :=
    AssetsLockedExtractor.canonicalEvents_sameOutcome_runtime rt rt' req.localLastCommit
  rw [canonicalEventsAt, withContext_eq_ok] at hce
  -- the canonical events were read by gogoproto, so the injected tx reads back
  have hback : InjectedTx.readsBack ⟨first :: rest, commitBytes⟩ :=
    List.all_eq_true.2 (AssetsLockedExtractor.readsBack_of_mem_canonicalEvents hwithin hce)
  rw [hce] at hsame
  obtain ⟨recreated, hrec, heq⟩ := hsame.exists_ok
  refine ph.processProposalHandler_accept hpaused (hinjected _ hback _ hinj) (hcommit _ _ hcm) hval
    (by rw [canonicalEventsAt, hrec]; rfl) ?_ htip
  rw [AssetsLockedEvents.equal_comm]
  exact heq

/-- Proposer and validator agree: when `PrepareProposal` returns, a validator in the same
state at the same height accepts what it returned, whatever either runtime does. Either the
request's transactions came back, and the app-level handler sends them behind an empty bridge
part, or a fresh `InjectedTx` of events went in front of them. The codecs read back what they
write of set integers within `MaxBitLen`, the only ones gogoproto's `Unmarshal` gives. -/
theorem prepareProposal_processProposal (rt rt' : Runtime) (s : σ) (req : RequestPrepareProposal)
    (hinjected : ph.injectedTxProto.RoundTripsOn fun tx => tx.readsBack)
    (hcommit : ph.extendedCommitInfoProto.RoundTrips)
    (hwithin : ph.assetsLockedExtractor.UnmarshalsWithinMaxBitLen)
    {txs : List Bytes} (h : ph.prepareProposalHandler rt s req = .ok txs) :
    (txs = req.txs ∧ ph.processProposalHandler rt' s ⟨[] :: txs, req.height⟩ = .ok .accept) ∨
      ∃ injectedTx : InjectedTx, injectedTx.assetsLockedEvents ≠ [] ∧
        ∃ injectedTxBytes, ph.injectedTxProto.marshal injectedTx = .ok injectedTxBytes ∧
          txs = injectedTxBytes :: req.txs ∧
          ph.processProposalHandler rt' s ⟨txs, req.height⟩ = .ok .accept := by
  rcases ph.prepareProposalHandler_eq_ok h with rfl |
    ⟨first, rest, commitBytes, injectedTxBytes, hpaused, hval, hce, htip, hcm, hinj, rfl⟩
  · exact .inl ⟨rfl, rfl⟩
  exact .inr ⟨⟨first :: rest, commitBytes⟩, List.cons_ne_nil _ _, injectedTxBytes, hinj, rfl,
    ph.processProposalHandler_of_injected rt rt' hinjected hcommit hwithin hpaused hval hce htip
      hcm hinj req.txs⟩

/-- A proposer that reads one event off two votes injects it, with codecs that write and read the
one `InjectedTx` and the one commit of this block, and a validator accepts the block. -/
theorem prepareProposal_processProposal_oneEvent :
    let e : AssetsLockedEvent :=
      ⟨some 1, "mezo1recipient", some 100, "0x1111111111111111111111111111111111111111"⟩
    let commit : ExtendedCommitInfo := ⟨[⟨[1], 10, [5], .commit⟩, ⟨[2], 20, [5], .commit⟩]⟩
    let injectedTx : InjectedTx := ⟨[e], [2]⟩
    let ph : ProposalHandler Unit :=
      ⟨⟨fun _ => 0, fun _ => false, fun _ => pure (), pure ()⟩, fun _ => [[1]],
        fun _ _ _ => .ok (),
        ⟨⟨fun _ => some [1], Eth.isHexAddress, Eth.hexToAddress, fun _ => ""⟩, .ok,
          fun _ => .ok ⟨[e]⟩⟩,
        ⟨fun tx => if tx = injectedTx then .ok [1] else .error "unsupported",
          fun bytes => if bytes = [1] then .ok injectedTx else .error "unsupported"⟩,
        ⟨fun c => if c = commit then .ok [2] else .error "unsupported",
          fun bytes => if bytes = [2] then .ok commit else .error "unsupported"⟩⟩
    let req : RequestPrepareProposal := ⟨100, [[7]], commit, 2⟩
    (ph.injectedTxProto.RoundTripsOn (fun tx => tx.readsBack) ∧
      ph.extendedCommitInfoProto.RoundTrips ∧
      ph.assetsLockedExtractor.UnmarshalsWithinMaxBitLen ∧
      ph.prepareProposalHandler Runtime.insertionOrder () req = .ok [[1], [7]]) ∧
    (([[1], [7]] = req.txs ∧
        ph.processProposalHandler Runtime.insertionOrder () ⟨[] :: [[1], [7]], req.height⟩ =
          .ok .accept) ∨
      ∃ injectedTx : InjectedTx, injectedTx.assetsLockedEvents ≠ [] ∧
        ∃ injectedTxBytes, ph.injectedTxProto.marshal injectedTx = .ok injectedTxBytes ∧
          [[1], [7]] = injectedTxBytes :: req.txs ∧
          ph.processProposalHandler Runtime.insertionOrder () ⟨[[1], [7]], req.height⟩ =
            .ok .accept) := by
  intro e commit injectedTx ph req
  -- each codec writes its one value as one byte and reads that byte back as it
  have hinjected : ph.injectedTxProto.RoundTripsOn fun tx => tx.readsBack := by
    intro tx _ bytes h
    by_cases htx : tx = injectedTx
    · subst htx
      obtain rfl : bytes = [1] := (Except.ok.inj h).symm
      rfl
    · simp [ph, htx] at h
  have hcommit : ph.extendedCommitInfoProto.RoundTrips := by
    intro c bytes h
    by_cases hc : c = commit
    · subst hc
      obtain rfl : bytes = [2] := (Except.ok.inj h).symm
      rfl
    · simp [ph, hc] at h
  have hwithin : ph.assetsLockedExtractor.UnmarshalsWithinMaxBitLen := by
    intro bytes voteExtension h e' he'
    obtain rfl : voteExtension = ⟨[e]⟩ := (Except.ok.inj h).symm
    obtain rfl : e' = e := List.mem_singleton.1 he'
    decide
  have hprep : ph.prepareProposalHandler Runtime.insertionOrder () req = .ok [[1], [7]] := by
    decide +kernel
  exact ⟨⟨hinjected, hcommit, hwithin, hprep⟩,
    prepareProposal_processProposal _ Runtime.insertionOrder Runtime.insertionOrder () _ hinjected
      hcommit hwithin hprep⟩

end ProposalHandler

end Mezod
