import Mezod.App.VoteExtension

/-! # The app-level proposal handlers (`app/abci/proposal.go`)

Once vote extensions are enabled, the proposer's `PrepareProposal` runs every sub-handler on the
request and keeps, under each part's key, the transaction the sub-handler injected (`[]` when it
injected none). The parts go in front of the proposal as the app's `InjectedTx`, and the list is
cut at the first transaction that no longer fits in `MaxTxBytes`. A validator's
`ProcessProposal` decodes the first transaction back into parts and hands each, in front of the
rest of the proposal, to the sub-handler of its key.

What the proposer builds stays within the block size and keeps the request's transactions in
order (`prepareProposalHandler_size`). When every sub-handler accepts in `ProcessProposal` what
it injected in `PrepareProposal`, in front of any transactions, a validator in the same state
accepts what the proposer built, unless the cut left nothing at all, which it rejects
(`processProposalHandler_of_prepareProposalHandler`). The bridge's handlers are such a pair
(`toProposalSubHandler_agrees`). -/

namespace Mezod
namespace App
open Go

/-- `IProposalHandler`, at the state of a request's context and under the runtime's choices. -/
structure ProposalSubHandler (σ : Type) where
  prepareProposalHandler : Runtime → σ → RequestPrepareProposal → Except GoError (List Bytes)
  processProposalHandler : Runtime → σ → RequestProcessProposal → Except GoError ProposalStatus

/-- `extractInjectedTx`: the first transaction of the response, unless there is none, it is
empty, or it is the request's own first one. -/
def extractInjectedTx (req : RequestPrepareProposal) (res : List Bytes) : Bytes :=
  let firstReqTx := req.txs.head?.getD []
  let firstResTx := res.head?.getD []
  if firstResTx.isEmpty || firstResTx == firstReqTx then [] else firstResTx

/-- A sub-handler's pair of handlers agree: what its `PrepareProposal` injected, its
`ProcessProposal` accepts in the same state, in front of any transactions and under any
runtime. -/
def ProposalSubHandler.Agrees {σ : Type} (subHandler : ProposalSubHandler σ) : Prop :=
  ∀ rt rt' s req res, subHandler.prepareProposalHandler rt s req = .ok res →
    ∀ txs, subHandler.processProposalHandler rt' s ⟨extractInjectedTx req res :: txs, req.height⟩ =
      .ok .accept

/-- The consensus parameters' `VoteExtensionsEnableHeight`, nil when `Abci` is. -/
structure ConsensusParams where
  voteExtensionsEnableHeight : Option Int64
  deriving DecidableEq, Repr

/-- `isVoteExtensionsEnabled`. -/
def isVoteExtensionsEnabled (cp : ConsensusParams) (height : Int64) : Bool :=
  match cp.voteExtensionsEnableHeight with
  | none => false
  | some enableHeight => decide (0 < enableHeight.toInt) && decide (enableHeight.toInt < height.toInt)

/-- The app-level `ProposalHandler`. Its map of sub-handlers is listed in key order. -/
structure ProposalHandler (σ : Type) where
  subHandlers : List (VoteExtensionPart × ProposalSubHandler σ)
  subHandlers_sorted : OrderedMap.Sorted subHandlers
  consensusParams : σ → ConsensusParams
  injectedTxProto : Proto InjectedTx

end App

/-- The bridge `ProposalHandler` as a sub-handler. -/
def ProposalHandler.toProposalSubHandler {σ : Type} (ph : ProposalHandler σ) :
    App.ProposalSubHandler σ :=
  ⟨ph.prepareProposalHandler, ph.processProposalHandler⟩

namespace App
open Go

/-- `NewProposalHandler`. -/
def newProposalHandler {σ : Type} (bridgeSubHandler : Mezod.ProposalHandler σ)
    (connectSubHandler : ProposalSubHandler σ) (consensusParams : σ → ConsensusParams)
    (injectedTxProto : Proto InjectedTx) : ProposalHandler σ where
  subHandlers := [(voteExtensionPartBridge, bridgeSubHandler.toProposalSubHandler),
    (voteExtensionPartConnect, connectSubHandler)]
  subHandlers_sorted := by
    simp [OrderedMap.Sorted, voteExtensionPartBridge, voteExtensionPartConnect]
  consensusParams := consensusParams
  injectedTxProto := injectedTxProto

/-- The loop that keeps transactions in order while they fit in `maxTxBytes` and stops at the
first that does not; `txsBytes` is the size kept so far. -/
def fitTxs (maxTxBytes : Int) : Int → List Bytes → List Bytes
  | _, [] => []
  | txsBytes, tx :: rest =>
    if txsBytes + tx.length > maxTxBytes then []
    else tx :: fitTxs maxTxBytes (txsBytes + tx.length) rest

namespace ProposalHandler
variable {σ : Type} (ph : ProposalHandler σ)

/-- What a sub-handler's `PrepareProposal` injected, for its part. -/
def prepareSubHandler (rt : Runtime) (s : σ) (req : RequestPrepareProposal) (_ : VoteExtensionPart)
    (subHandler : ProposalSubHandler σ) : Except GoError Bytes :=
  (subHandler.prepareProposalHandler rt s req).map (extractInjectedTx req)

/-- `PrepareProposalHandler`. -/
def prepareProposalHandler (rt : Runtime) (s : σ) (req : RequestPrepareProposal) :
    Except GoError (List Bytes) :=
  if !isVoteExtensionsEnabled (ph.consensusParams s) req.height then .ok req.txs
  else match (rt.rangeOrderEntries ph.subHandlers).foldlM
      (collectPart (prepareSubHandler rt s req)) [] with
    | .error e => .error e
    | .ok injectedTxParts =>
      if injectedTxParts.isEmpty then .error (.error "all sub-handlers failed to prepare proposal")
      else match ph.injectedTxProto.marshal ⟨injectedTxParts⟩ with
        | .error err => .error (.error ("failed to marshal injected tx: " ++ err))
        | .ok injectedTxBytes => .ok (fitTxs req.maxTxBytes.toInt 0 (injectedTxBytes :: req.txs))

/-- One turn of the loop over the parts: the part's sub-handler has to accept it in front of the
rest of the proposal. -/
def processPart (rt : Runtime) (s : σ) (req : RequestProcessProposal) :
    VoteExtensionPart × Bytes → Except GoError PUnit :=
  checkPart ph.subHandlers "process" "injected tx" ProposalStatus.accept
    fun subHandler partBytes =>
      subHandler.processProposalHandler rt s { req with txs := partBytes :: req.txs.tail }

/-- `ProcessProposalHandler`. -/
def processProposalHandler (rt : Runtime) (s : σ) (req : RequestProcessProposal) :
    Except GoError ProposalStatus :=
  if !isVoteExtensionsEnabled (ph.consensusParams s) req.height then .ok .accept
  else match req.txs with
    | [] => .error (.error "empty proposal")
    | tx :: _ =>
      match ph.injectedTxProto.unmarshal tx with
      | .error err => .error (.error ("failed to unmarshal injected tx: " ++ err))
      | .ok injectedTx =>
        if injectedTx.parts.isEmpty then .error (.error "injected tx has no parts")
        else match (rt.rangeOrder injectedTx.parts).forM (ph.processPart rt s req) with
          | .error e => .error e
          | .ok () => .ok .accept

/-! ## What `PrepareProposal` builds -/

variable {ph} {s : σ}

theorem prepareProposalHandler_eq_ok {rt : Runtime} {req : RequestPrepareProposal}
    {txs : List Bytes} (h : ph.prepareProposalHandler rt s req = .ok txs) :
    isVoteExtensionsEnabled (ph.consensusParams s) req.height = false ∧ txs = req.txs ∨
      isVoteExtensionsEnabled (ph.consensusParams s) req.height = true ∧
      ∃ parts injectedTxBytes, PartsFrom ph.subHandlers (prepareSubHandler rt s req) parts ∧
        parts ≠ [] ∧ ph.injectedTxProto.marshal ⟨parts⟩ = .ok injectedTxBytes ∧
        txs = fitTxs req.maxTxBytes.toInt 0 (injectedTxBytes :: req.txs) := by
  unfold prepareProposalHandler at h
  split at h
  · rename_i hoff
    exact .inl ⟨by simpa using hoff, (Except.ok.inj h).symm⟩
  rename_i hon
  split at h
  · cases h
  rename_i parts hloop
  -- the loop ran over a permutation of the sub-handlers
  have hI := partsFrom_collectParts
    (fun _ hq => (rt.rangeOrderEntries_perm ph.subHandlers).mem_iff.1 hq) hloop
  split at h
  · cases h
  rename_i hne
  split at h
  · cases h
  rename_i injectedTxBytes hmarshal
  exact .inr ⟨by simpa using hon, parts, injectedTxBytes, hI, by simpa using hne, hmarshal,
    (Except.ok.inj h).symm⟩

end ProposalHandler

/-! ## The cut to `MaxTxBytes` -/

theorem fitTxs_isPrefix_self (maxTxBytes : Int) :
    ∀ (txsBytes : Int) (l : List Bytes), fitTxs maxTxBytes txsBytes l <+: l
  | _, [] => List.nil_prefix
  | txsBytes, tx :: rest => by
    unfold fitTxs
    split
    · exact List.nil_prefix
    · exact (List.prefix_cons_inj tx).2 (fitTxs_isPrefix_self maxTxBytes _ rest)

theorem fitTxs_size (maxTxBytes : Int) :
    ∀ (txsBytes : Int) (l : List Bytes), txsBytes ≤ maxTxBytes →
      txsBytes + (((fitTxs maxTxBytes txsBytes l).map List.length).sum : Int) ≤ maxTxBytes
  | _, [], h => by simpa [fitTxs] using h
  | txsBytes, tx :: rest, h => by
    unfold fitTxs
    split
    · simpa using h
    · rename_i hfit
      -- the transaction fits, and the rest is cut from the size after it
      have ih := fitTxs_size maxTxBytes (txsBytes + tx.length) rest (by omega)
      simp only [List.map_cons, List.sum_cons, Nat.cast_add]
      omega

theorem fitTxs_cons_cases (maxTxBytes txsBytes : Int) (tx : Bytes) (rest : List Bytes) :
    fitTxs maxTxBytes txsBytes (tx :: rest) = [] ∨
      fitTxs maxTxBytes txsBytes (tx :: rest) =
        tx :: fitTxs maxTxBytes (txsBytes + tx.length) rest := by
  by_cases hfit : txsBytes + tx.length > maxTxBytes
  · exact .inl (by rw [fitTxs, if_pos hfit])
  · exact .inr (by rw [fitTxs, if_neg hfit])

namespace ProposalHandler
variable {σ : Type} {ph : ProposalHandler σ} {s : σ}

/-- While vote extensions are on, the proposer's transactions fit in `MaxTxBytes`, and behind the
injected tx they are the first of the request's, in their order. -/
theorem prepareProposalHandler_size {rt : Runtime} {req : RequestPrepareProposal}
    {txs : List Bytes} (h : ph.prepareProposalHandler rt s req = .ok txs)
    (hon : isVoteExtensionsEnabled (ph.consensusParams s) req.height = true)
    (hmax : 0 ≤ req.maxTxBytes.toInt) :
    ((txs.map List.length).sum : Int) ≤ req.maxTxBytes.toInt ∧ txs.tail <+: req.txs := by
  rcases prepareProposalHandler_eq_ok h with ⟨hoff, -⟩ | ⟨-, parts, injectedTxBytes, -, -, -, rfl⟩
  · rw [hon] at hoff
    cases hoff
  refine ⟨by simpa using fitTxs_size req.maxTxBytes.toInt 0 (injectedTxBytes :: req.txs) hmax, ?_⟩
  rcases fitTxs_cons_cases req.maxTxBytes.toInt 0 injectedTxBytes req.txs with hcut | hcut
  · rw [hcut]
    exact List.nil_prefix
  · rw [hcut]
    exact fitTxs_isPrefix_self _ _ _

/-! ## What `ProcessProposal` accepts -/

/-- What `ProcessProposal` accepts: anything while vote extensions are off, and otherwise a
first transaction that decodes to parts, at least one, each of which a sub-handler of its key
accepts in front of the rest of the proposal. -/
theorem processProposalHandler_eq_accept_iff (rt : Runtime) {req : RequestProcessProposal} :
    ph.processProposalHandler rt s req = .ok .accept ↔
      isVoteExtensionsEnabled (ph.consensusParams s) req.height = false ∨
      ∃ tx rest injectedTx, req.txs = tx :: rest ∧
        ph.injectedTxProto.unmarshal tx = .ok injectedTx ∧ injectedTx.parts ≠ [] ∧
        ∀ p ∈ injectedTx.parts, ∃ subHandler, (p.1, subHandler) ∈ ph.subHandlers ∧
          subHandler.processProposalHandler rt s ⟨p.2 :: rest, req.height⟩ = .ok .accept := by
  unfold processProposalHandler
  by_cases hon : isVoteExtensionsEnabled (ph.consensusParams s) req.height
  · rw [if_neg (by simp [hon])]
    obtain ⟨txs, height⟩ := req
    cases txs with
    | nil => simp [hon]
    | cons tx rest =>
      -- the loop over the parts passes when each part passes, in whatever order
      have hparts : ∀ parts : List (VoteExtensionPart × Bytes),
          (rt.rangeOrder parts).forM (ph.processPart rt s ⟨tx :: rest, height⟩) = .ok () ↔
            ∀ p ∈ parts, ∃ subHandler, (p.1, subHandler) ∈ ph.subHandlers ∧
              subHandler.processProposalHandler rt s ⟨p.2 :: rest, height⟩ = .ok .accept :=
        fun parts => forM_checkPart_eq_ok_iff rt ph.subHandlers_sorted parts
      dsimp only
      cases htx : ph.injectedTxProto.unmarshal tx with
      | error err => simp [hon, htx]
      | ok injectedTx =>
        dsimp only
        by_cases hnil : injectedTx.parts = []
        · simp [hon, hnil, htx]
        rw [if_neg (by simpa using hnil)]
        cases hloop : (rt.rangeOrder injectedTx.parts).forM
            (ph.processPart rt s ⟨tx :: rest, height⟩) with
        | error e =>
          have hnot : (rt.rangeOrder injectedTx.parts).forM
              (ph.processPart rt s ⟨tx :: rest, height⟩) ≠ .ok () := by
            rw [hloop]
            exact fun h => by cases h
          have hfail := fun h => hnot ((hparts injectedTx.parts).2 h)
          simp only [reduceCtorEq, false_iff, not_or, hon, Bool.true_eq_false, not_false_eq_true,
            true_and, not_exists, not_and, List.cons.injEq]
          rintro _ _ _ ⟨rfl, rfl⟩ htx' _ hall
          rw [htx] at htx'
          cases htx'
          exact hfail hall
        | ok u =>
          have hall := (hparts _).1 hloop
          simp only [true_iff]
          exact .inr ⟨tx, rest, injectedTx, rfl, htx, hnil, hall⟩
  · rw [if_pos (by simpa using hon)]
    simp only [true_iff]
    exact .inl (by simpa using hon)

/-! ## The proposer and the validators agree -/

/-- When every sub-handler's pair agrees, a validator in the proposer's state accepts what the
proposer built, whatever order either side ranges in, except an empty cut, which it rejects. -/
theorem processProposalHandler_of_prepareProposalHandler (rt rt' : Runtime)
    (hagree : ∀ p ∈ ph.subHandlers, p.2.Agrees) (hproto : ph.injectedTxProto.RoundTrips)
    {req : RequestPrepareProposal} {txs : List Bytes}
    (h : ph.prepareProposalHandler rt s req = .ok txs) :
    txs = [] ∧ ph.processProposalHandler rt' s ⟨txs, req.height⟩ =
        .error (.error "empty proposal") ∨
      ph.processProposalHandler rt' s ⟨txs, req.height⟩ = .ok .accept := by
  rcases prepareProposalHandler_eq_ok h with ⟨hoff, rfl⟩ |
    ⟨hon, parts, injectedTxBytes, hI, hne, hmarshal, rfl⟩
  · exact .inr ((processProposalHandler_eq_accept_iff rt').2 (.inl hoff))
  rcases fitTxs_cons_cases req.maxTxBytes.toInt 0 injectedTxBytes req.txs with hcut | hcut
  · -- the injected tx alone is over `MaxTxBytes`
    refine .inl ⟨hcut, ?_⟩
    rw [hcut, processProposalHandler, if_neg (by simp [hon])]
  refine .inr ((processProposalHandler_eq_accept_iff rt').2 (.inr ⟨injectedTxBytes, _, ⟨parts⟩,
    hcut, hproto _ _ hmarshal, hne, fun p hp => ?_⟩))
  -- each part is what its sub-handler injected, which it accepts in front of any transactions
  obtain ⟨subHandler, hmem, hprep⟩ := hI.2 p hp
  obtain ⟨res, hres, hextract⟩ := map_eq_ok.1 hprep
  refine ⟨subHandler, hmem, ?_⟩
  rw [← hextract]
  exact hagree _ hmem rt rt' s req res hres _

end ProposalHandler

/-! ## The bridge's pair of handlers -/

theorem extractInjectedTx_self (req : RequestPrepareProposal) : extractInjectedTx req req.txs = [] := by
  simp [extractInjectedTx]

theorem extractInjectedTx_cons (req : RequestPrepareProposal) (tx : Bytes) :
    extractInjectedTx req (tx :: req.txs) = [] ∨ extractInjectedTx req (tx :: req.txs) = tx := by
  unfold extractInjectedTx
  dsimp only
  split
  · exact .inl rfl
  · exact .inr rfl

theorem toProposalSubHandler_agrees {σ : Type} {ph : Mezod.ProposalHandler σ}
    (hinjected : ph.injectedTxProto.RoundTripsOn fun tx => tx.readsBack)
    (hcommit : ph.extendedCommitInfoProto.RoundTrips)
    (hwithin : ph.assetsLockedExtractor.UnmarshalsWithinMaxBitLen) :
    ph.toProposalSubHandler.Agrees := by
  intro rt rt' s req res h txs
  dsimp only [Mezod.ProposalHandler.toProposalSubHandler] at h ⊢
  rcases ph.prepareProposalHandler_eq_ok h with rfl |
    ⟨first, rest, commitBytes, injectedTxBytes, hpaused, hval, hce, htip, hcm, hinj, rfl⟩
  · rw [extractInjectedTx_self]
    rfl
  rcases extractInjectedTx_cons req injectedTxBytes with hpart | hpart
  · rw [hpart]
    rfl
  rw [hpart]
  exact ph.processProposalHandler_of_injected rt rt' hinjected hcommit hwithin hpaused hval hce
    htip hcm hinj txs

/-- The app's handler as `NewProposalHandler` builds it, from the bridge's handlers and an oracle
handler whose pair agrees: a validator in the proposer's state accepts what the proposer built,
whatever order either side ranges in, unless the cut to `MaxTxBytes` left nothing. -/
theorem newProposalHandler_accepted {σ : Type} (bridgeSubHandler : Mezod.ProposalHandler σ)
    (connectSubHandler : ProposalSubHandler σ) (consensusParams : σ → ConsensusParams)
    (injectedTxProto : Proto InjectedTx)
    (hinjected : bridgeSubHandler.injectedTxProto.RoundTripsOn fun tx => tx.readsBack)
    (hcommit : bridgeSubHandler.extendedCommitInfoProto.RoundTrips)
    (hwithin : bridgeSubHandler.assetsLockedExtractor.UnmarshalsWithinMaxBitLen)
    (hconnect : connectSubHandler.Agrees) (hproto : injectedTxProto.RoundTrips) (rt rt' : Runtime)
    {s : σ} {req : RequestPrepareProposal} {txs : List Bytes}
    (h : (newProposalHandler bridgeSubHandler connectSubHandler consensusParams
      injectedTxProto).prepareProposalHandler rt s req = .ok txs) :
    txs = [] ∧ (newProposalHandler bridgeSubHandler connectSubHandler consensusParams
        injectedTxProto).processProposalHandler rt' s ⟨txs, req.height⟩ =
        .error (.error "empty proposal") ∨
      (newProposalHandler bridgeSubHandler connectSubHandler consensusParams
        injectedTxProto).processProposalHandler rt' s ⟨txs, req.height⟩ = .ok .accept := by
  have hagree : ∀ p ∈ (newProposalHandler bridgeSubHandler connectSubHandler consensusParams
      injectedTxProto).subHandlers, p.2.Agrees := by
    intro p hp
    simp only [newProposalHandler, List.mem_cons, List.not_mem_nil, or_false] at hp
    rcases hp with rfl | rfl
    · exact toProposalSubHandler_agrees hinjected hcommit hwithin
    · exact hconnect
  exact ProposalHandler.processProposalHandler_of_prepareProposalHandler rt rt' hagree hproto h

/-- With bridge-in paused the bridge injects nothing, and an oracle that is down leaves the empty
bridge part the only one. -/
theorem newProposalHandler_accepted_paused :
    let codec : AddressCodec := ⟨fun _ => none, fun _ => false, fun _ => [], fun _ => ""⟩
    let bridge : Mezod.ProposalHandler Bool :=
      ⟨⟨fun _ => 0, id, fun _ => pure (), pure ()⟩, fun _ => [], fun _ _ _ => .ok (),
        ⟨codec, .ok, fun _ => .error "unused"⟩,
        ⟨fun _ => .error "unsupported", fun _ => .error "unsupported"⟩,
        ⟨fun _ => .error "unsupported", fun _ => .error "unsupported"⟩⟩
    let connect : ProposalSubHandler Bool :=
      ⟨fun _ _ _ => .error (.error "oracle down"), fun _ _ _ => .ok .accept⟩
    let injectedTxProto : Proto InjectedTx :=
      ⟨fun tx => if tx = ⟨[(voteExtensionPartBridge, [])]⟩ then .ok [9] else .error "unsupported",
        fun _ => .ok ⟨[(voteExtensionPartBridge, [])]⟩⟩
    let app := newProposalHandler bridge connect (fun _ => ⟨some 1⟩) injectedTxProto
    let req : RequestPrepareProposal := ⟨100, [[7]], ⟨[]⟩, 2⟩
    (bridge.injectedTxProto.RoundTripsOn (fun tx => tx.readsBack) ∧
      bridge.extendedCommitInfoProto.RoundTrips ∧
      bridge.assetsLockedExtractor.UnmarshalsWithinMaxBitLen ∧ connect.Agrees ∧
      injectedTxProto.RoundTrips ∧
      app.prepareProposalHandler Runtime.insertionOrder true req = .ok [[9], [7]]) ∧
    (([[9], [7]] : List Bytes) = [] ∧ app.processProposalHandler Runtime.insertionOrder true ⟨[[9], [7]], 2⟩ =
        .error (.error "empty proposal") ∨
      app.processProposalHandler Runtime.insertionOrder true ⟨[[9], [7]], 2⟩ = .ok .accept) := by
  intro codec bridge connect injectedTxProto app req
  have hinjected : bridge.injectedTxProto.RoundTripsOn fun tx => tx.readsBack :=
    fun _ _ _ h => by cases h
  have hcommit : bridge.extendedCommitInfoProto.RoundTrips := fun _ _ h => by cases h
  have hwithin : bridge.assetsLockedExtractor.UnmarshalsWithinMaxBitLen := fun _ _ h => by cases h
  have hconnect : connect.Agrees := fun _ _ _ _ _ h => by cases h
  have hproto : injectedTxProto.RoundTrips := by
    intro tx bytes h
    by_cases htx : tx = ⟨[(voteExtensionPartBridge, [])]⟩
    · subst htx
      rfl
    · simp [injectedTxProto, htx] at h
  have hprep : app.prepareProposalHandler Runtime.insertionOrder true req = .ok [[9], [7]] := by
    decide
  exact ⟨⟨hinjected, hcommit, hwithin, hconnect, hproto, hprep⟩,
    newProposalHandler_accepted bridge connect _ injectedTxProto hinjected hcommit hwithin hconnect
      hproto
      Runtime.insertionOrder Runtime.insertionOrder hprep⟩

end App
end Mezod
