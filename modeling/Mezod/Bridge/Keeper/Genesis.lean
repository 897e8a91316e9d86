import Mezod.Bridge.Keeper.Triparty

/-! # The triparty part of the bridge genesis (`x/bridge/types/genesis.go`,
`x/bridge/keeper/genesis.go`)

`GenesisState.Validate` checks, among the rest of the genesis, the triparty settings, the
controllers and their minted amounts, and the pending requests: each pending request must be
well formed, its sequence must lie after the processed tip and up to the request tip, and every
sequence in that range must be pending. `InitGenesis` then writes them into the store, the
pending requests under the keys of their sequences. `initTripartyGenesis_queue` is the base case
of the queue invariant: a validated genesis written into a store with no pending request gives a
well-formed queue. The checks of `Validate` on the other parts of the genesis are not modelled;
they read none of the fields here. -/

namespace Mezod
open Go KeeperM EStateM

/-- `TripartyControllerBTCMinted` (`genesis.pb.go`). -/
structure TripartyControllerBTCMinted where
  controller : String
  amount : Int
  deriving DecidableEq, Repr

/-- The triparty fields of `GenesisState` (`genesis.pb.go`). -/
structure TripartyGenesis where
  allowedTripartyControllers : List String
  tripartyBlockDelay : Int64
  tripartyPerRequestLimit : Int
  tripartyWindowLimit : Int
  tripartyRequestSequenceTip : Int
  tripartyProcessedSequenceTip : Int
  tripartyPendingRequests : List TripartyBridgeRequest
  tripartyWindowConsumed : Int
  tripartyWindowLastReset : UInt64
  tripartyControllerBtcMinted : List TripartyControllerBTCMinted

namespace TripartyGenesis
variable (codec : AddressCodec)

/-- `evmtypes.IsZeroHexAddress`. -/
def isZeroHexAddress (address : String) : Bool :=
  codec.hexToAddress address == zeroAddress

/-- The loop of `Validate` over `TripartyControllerBtcMinted`, from index `i`, with the
normalized controllers seen so far. -/
def validateControllerBtcMinted : Nat → List String → List TripartyControllerBTCMinted →
    Except String Unit
  | _, _, [] => .ok ()
  | i, seen, entry :: rest =>
    if entry.controller.isEmpty then
      .error ("triparty controller BTC minted entry " ++ toString i ++ " controller cannot be empty")
    else if !codec.isHexAddress entry.controller then
      .error ("triparty controller BTC minted entry " ++ toString i ++
        " controller must be a valid hex-encoded EVM address")
    else if isZeroHexAddress codec entry.controller then
      .error ("triparty controller BTC minted entry " ++ toString i ++
        " controller cannot be the zero EVM address")
    else if ¬ 0 < entry.amount then
      .error ("triparty controller BTC minted entry " ++ toString i ++ " amount must be positive: " ++
        toString entry.amount)
    else
      let normalized := codec.bytesToHexAddress (codec.hexToAddress entry.controller)
      if normalized ∈ seen then
        .error ("triparty controller BTC minted entry " ++ toString i ++
          " has duplicate controller: " ++ entry.controller)
      else validateControllerBtcMinted (i + 1) (normalized :: seen) rest

/-- The loop of `Validate` over `AllowedTripartyControllers`. -/
def validateAllowedControllers : Nat → List String → List String → Except String Unit
  | _, _, [] => .ok ()
  | i, seen, controller :: rest =>
    if controller.isEmpty then
      .error ("allowed triparty controller " ++ toString i ++ " cannot be empty")
    else if !codec.isHexAddress controller then
      .error ("allowed triparty controller " ++ toString i ++
        " must be a valid hex-encoded EVM address")
    else if isZeroHexAddress codec controller then
      .error ("allowed triparty controller " ++ toString i ++ " cannot be the zero EVM address")
    else
      let normalized := codec.bytesToHexAddress (codec.hexToAddress controller)
      if normalized ∈ seen then
        .error ("allowed triparty controller " ++ toString i ++ " is a duplicate: " ++ controller)
      else validateAllowedControllers (i + 1) (normalized :: seen) rest

/-- The body of the first loop of `Validate` over `TripartyPendingRequests`. -/
def validatePendingRequest (i : Nat) (req : TripartyBridgeRequest) : Except String Unit :=
  let pre := "pending triparty request " ++ toString i
  if req.sequence ≤ 0 then .error (pre ++ " sequence must be positive: " ++ toString req.sequence)
  else if req.blockHeight < 0 then
    .error (pre ++ " block height cannot be negative: " ++ toString req.blockHeight.toInt)
  else if req.recipient.isEmpty then .error (pre ++ " recipient cannot be empty")
  else if !codec.isHexAddress req.recipient then
    .error (pre ++ " recipient must be a valid hex-encoded EVM address")
  else if isZeroHexAddress codec req.recipient then
    .error (pre ++ " recipient cannot be the zero EVM address")
  else if req.controller.isEmpty then .error (pre ++ " controller cannot be empty")
  else if !codec.isHexAddress req.controller then
    .error (pre ++ " controller must be a valid hex-encoded EVM address")
  else if isZeroHexAddress codec req.controller then
    .error (pre ++ " controller cannot be the zero EVM address")
  else if req.amount ≤ 0 then .error (pre ++ " amount must be positive: " ++ toString req.amount)
  else if req.callbackData.length > maxTripartyCallbackDataLength then
    .error (pre ++ " callback data exceeds maximum length")
  else .ok ()

/-- The body of the second loop over `TripartyPendingRequests`: the sequence lies after the
processed tip and up to the request tip. -/
def validatePendingSequence (gs : TripartyGenesis) (i : Nat) (req : TripartyBridgeRequest) :
    Except String Unit :=
  if req.sequence ≤ gs.tripartyProcessedSequenceTip then
    .error ("pending triparty request " ++ toString i ++
      " sequence must be greater than processed sequence tip: " ++ toString req.sequence ++
      " <= " ++ toString gs.tripartyProcessedSequenceTip)
  else if req.sequence > gs.tripartyRequestSequenceTip then
    .error ("pending triparty request " ++ toString i ++
      " sequence cannot be greater than request sequence tip: " ++ toString req.sequence ++
      " > " ++ toString gs.tripartyRequestSequenceTip)
  else .ok ()

/-- `for i, x := range l { if err := check(i, x); err != nil { return err } }`. -/
def forEachIndexed {α : Type} (l : List α) (check : Nat → α → Except String Unit) :
    Except String Unit :=
  l.zipIdx.forM fun (x, i) => check i x

/-- The gapless check: every sequence after the processed tip up to the request tip is pending.
`Validate` keeps the pending sequences in a map keyed by their decimal string, a bijection of the
sequence. -/
def gapless (gs : TripartyGenesis) : Bool :=
  (Sequence.range gs.tripartyProcessedSequenceTip
    (gs.tripartyRequestSequenceTip - gs.tripartyProcessedSequenceTip).toNat).all
      fun seq => gs.tripartyPendingRequests.any (·.sequence == seq)

/-- The triparty checks of `GenesisState.Validate`, in its order. Each guard is written as a
whole `if … else pure ()`, so that the checks compose by bind. -/
def validate (gs : TripartyGenesis) : Except String Unit := do
  (if gs.tripartyBlockDelay < 1 then
    throw ("genesis triparty block delay cannot be less than 1: " ++
      toString gs.tripartyBlockDelay.toInt) else pure ())
  (if gs.tripartyPerRequestLimit < 0 then
    throw ("genesis triparty per-request limit cannot be negative: " ++
      toString gs.tripartyPerRequestLimit) else pure ())
  (if gs.tripartyWindowLimit < 0 then
    throw ("genesis triparty window limit cannot be negative: " ++
      toString gs.tripartyWindowLimit) else pure ())
  (if gs.tripartyRequestSequenceTip < 0 then
    throw ("genesis triparty request sequence tip cannot be negative: " ++
      toString gs.tripartyRequestSequenceTip) else pure ())
  (if gs.tripartyProcessedSequenceTip < 0 then
    throw ("genesis triparty processed sequence tip cannot be negative: " ++
      toString gs.tripartyProcessedSequenceTip) else pure ())
  (if gs.tripartyRequestSequenceTip < gs.tripartyProcessedSequenceTip then
    throw ("genesis triparty request sequence tip cannot be less than processed sequence tip: " ++
      toString gs.tripartyRequestSequenceTip ++ " < " ++ toString gs.tripartyProcessedSequenceTip)
    else pure ())
  (if gs.tripartyWindowConsumed < 0 then
    throw ("genesis triparty window consumed cannot be negative: " ++
      toString gs.tripartyWindowConsumed) else pure ())
  validateControllerBtcMinted codec 0 [] gs.tripartyControllerBtcMinted
  validateAllowedControllers codec 0 [] gs.allowedTripartyControllers
  forEachIndexed gs.tripartyPendingRequests (validatePendingRequest codec)
  forEachIndexed gs.tripartyPendingRequests (validatePendingSequence gs)
  (if gs.tripartyRequestSequenceTip - gs.tripartyProcessedSequenceTip ≠
      gs.tripartyPendingRequests.length then
    throw "pending triparty requests must form a gapless range between processed and request sequence tips"
    else pure ())
  (if !gapless gs then
    throw "pending triparty requests must form a gapless range between processed and request sequence tips"
    else pure ())

/-! ## What a validated genesis guarantees -/

variable {codec}

private theorem forM_eq_ok {α : Type} {f : α → Except String Unit} :
    ∀ {l : List α}, l.forM f = .ok () → ∀ x ∈ l, f x = .ok ()
  | [], _ => by simp
  | a :: l, h => by
    change (f a >>= fun _ => l.forM f) = _ at h
    cases ha : f a with
    | error e => rw [ha] at h; cases h
    | ok u =>
      rw [ha] at h
      intro x hx
      rcases List.mem_cons.1 hx with rfl | hx
      · exact ha
      · exact forM_eq_ok h x hx

theorem forEachIndexed_eq_ok {α : Type} {l : List α} {check : Nat → α → Except String Unit}
    (h : forEachIndexed l check = .ok ()) : ∀ x ∈ l, ∃ i, check i x = .ok () := by
  intro x hx
  rw [← List.zipIdx_map_fst 0 l] at hx
  obtain ⟨⟨x', i⟩, hmem, rfl⟩ := List.mem_map.1 hx
  exact ⟨i, forM_eq_ok h _ hmem⟩

/-- The facts of a validated genesis that the queue rests on. -/
theorem validate_eq_ok {gs : TripartyGenesis} (h : validate codec gs = .ok ()) :
    ¬ gs.tripartyBlockDelay < 1 ∧ 0 ≤ gs.tripartyProcessedSequenceTip ∧
    gs.tripartyProcessedSequenceTip ≤ gs.tripartyRequestSequenceTip ∧
    (∀ req ∈ gs.tripartyPendingRequests, gs.tripartyProcessedSequenceTip < req.sequence ∧
      req.sequence ≤ gs.tripartyRequestSequenceTip) ∧
    gapless gs = true := by
  unfold validate at h
  -- peel the guards in order; only the delay, the tips, the pending sequences and the gapless
  -- check matter
  obtain ⟨_, hdelay, h⟩ := except_bind_eq_ok.1 h
  obtain ⟨_, -, h⟩ := except_bind_eq_ok.1 h
  obtain ⟨_, -, h⟩ := except_bind_eq_ok.1 h
  obtain ⟨_, -, h⟩ := except_bind_eq_ok.1 h
  obtain ⟨_, hp, h⟩ := except_bind_eq_ok.1 h
  obtain ⟨_, hle, h⟩ := except_bind_eq_ok.1 h
  obtain ⟨_, -, h⟩ := except_bind_eq_ok.1 h
  obtain ⟨_, -, h⟩ := except_bind_eq_ok.1 h
  obtain ⟨_, -, h⟩ := except_bind_eq_ok.1 h
  obtain ⟨_, -, h⟩ := except_bind_eq_ok.1 h
  obtain ⟨_, hseq, h⟩ := except_bind_eq_ok.1 h
  obtain ⟨_, -, hgap⟩ := except_bind_eq_ok.1 h
  rw [ite_throw_eq_ok] at hdelay hp hle hgap
  refine ⟨hdelay, by omega, by omega, fun req hreq => ?_, by simpa using hgap⟩
  obtain ⟨i, hi⟩ := forEachIndexed_eq_ok hseq req hreq
  unfold validatePendingSequence at hi
  split at hi
  · cases hi
  split at hi
  · cases hi
  omega

theorem gapless_pending {gs : TripartyGenesis} (h : gapless gs = true) {n : Int}
    (hlo : gs.tripartyProcessedSequenceTip < n) (hhi : n ≤ gs.tripartyRequestSequenceTip) :
    ∃ req ∈ gs.tripartyPendingRequests, req.sequence = n := by
  have hn : n ∈ Sequence.range gs.tripartyProcessedSequenceTip
      (gs.tripartyRequestSequenceTip - gs.tripartyProcessedSequenceTip).toNat :=
    Sequence.mem_range.2 ⟨hlo, by omega⟩
  obtain ⟨req, hreq, heq⟩ := List.any_eq_true.1 (List.all_eq_true.1 h n hn)
  exact ⟨req, hreq, beq_iff_eq.1 heq⟩

end TripartyGenesis

namespace Keeper
variable {ω : Type} (k : Keeper ω)

/-- The triparty part of `InitGenesis`. -/
def initTripartyGenesis (gs : TripartyGenesis) : KeeperM ω Unit := do
  gs.allowedTripartyControllers.forM fun controller =>
    allowTripartyController (k.codec.hexToAddress controller) true
  panicOnError "error setting triparty block delay" (setTripartyBlockDelay gs.tripartyBlockDelay)
  setTripartyPerRequestLimit gs.tripartyPerRequestLimit
  setTripartyWindowLimit gs.tripartyWindowLimit
  setTripartyRequestSequenceTip gs.tripartyRequestSequenceTip
  setTripartyProcessedSequenceTip gs.tripartyProcessedSequenceTip
  gs.tripartyPendingRequests.forM saveTripartyBridgeRequest
  if 0 < gs.tripartyWindowConsumed then increaseTripartyWindowConsumed gs.tripartyWindowConsumed
  setTripartyWindowLastReset gs.tripartyWindowLastReset
  gs.tripartyControllerBtcMinted.forM fun entry =>
    increaseTripartyControllerBTCMinted (k.codec.hexToAddress entry.controller) entry.amount

/-! ## Loading a genesis -/

section load
variable {k}

theorem foldl_saveTripartyBridgeRequest (l : List TripartyBridgeRequest) (b : BridgeStore) :
    (l.foldl (fun b r => { b with
        tripartyRequest := Function.update b.tripartyRequest (sequenceKey r.sequence) (some r) })
      b).tripartyRequest =
      writeAll (fun r : TripartyBridgeRequest => sequenceKey r.sequence) id l b.tripartyRequest :=
  (List.foldl_hom BridgeStore.tripartyRequest fun _ _ => rfl).symm

theorem returns_initTripartyGenesis (gs : TripartyGenesis) (hdelay : ¬ gs.tripartyBlockDelay < 1)
    (s : ChainState ω) :
    Returns (k.initTripartyGenesis gs) s fun _ s' =>
      s'.bridge.tripartyRequest = writeAll (fun r : TripartyBridgeRequest => sequenceKey r.sequence)
        id gs.tripartyPendingRequests s.bridge.tripartyRequest ∧
      s'.bridge.tripartyProcessedSequenceTip = gs.tripartyProcessedSequenceTip ∧
      s'.bridge.tripartyRequestSequenceTip = gs.tripartyRequestSequenceTip := by
  unfold initTripartyGenesis
  -- the controllers, the delay and the limits come before the tips and leave them alone
  apply returns_bind; apply returns_forM_modifyStore
  apply returns_bind; apply returns_panicOnError
  rw [setTripartyBlockDelay, if_neg hdelay]; apply returns_modifyStore
  apply returns_bind; apply returns_modifyStore
  apply returns_bind; apply returns_modifyStore
  apply returns_bind; apply returns_modifyStore
  apply returns_bind; apply returns_modifyStore
  apply returns_bind; apply returns_forM_modifyStore
  -- the store once the pending requests are written, whatever the rest writes
  refine (fun s₁ h => ?_ : ∀ s₁ : ChainState ω,
      s₁.bridge.tripartyRequest = writeAll (fun r : TripartyBridgeRequest => sequenceKey r.sequence)
        id gs.tripartyPendingRequests s.bridge.tripartyRequest ∧
      s₁.bridge.tripartyProcessedSequenceTip = gs.tripartyProcessedSequenceTip ∧
      s₁.bridge.tripartyRequestSequenceTip = gs.tripartyRequestSequenceTip → Returns _ s₁ _) _
    ⟨(foldl_saveTripartyBridgeRequest _ _).trans
      (congrArg _ (foldl_keeps BridgeStore.tripartyRequest (fun _ _ => by rfl) _ _)),
      foldl_keeps BridgeStore.tripartyProcessedSequenceTip (fun _ _ => by rfl) _ _,
      foldl_keeps BridgeStore.tripartyRequestSequenceTip (fun _ _ => by rfl) _ _⟩
  obtain ⟨h₁, h₂, h₃⟩ := h
  -- the window and the minted amounts, written last, leave the queue's fields as they were
  dsimp only
  split
  -- a positive consumed amount is added first
  apply returns_bind; apply returns_modifyStore
  all_goals
    apply returns_bind; apply returns_modifyStore
    apply returns_forM_modifyStore
    exact ⟨(foldl_keeps BridgeStore.tripartyRequest (fun _ _ => by rfl) _ _).trans h₁,
      (foldl_keeps BridgeStore.tripartyProcessedSequenceTip (fun _ _ => by rfl) _ _).trans h₂,
      (foldl_keeps BridgeStore.tripartyRequestSequenceTip (fun _ _ => by rfl) _ _).trans h₃⟩

/-- The base case of the queue invariant: a validated genesis, loaded into a store with no
pending request, gives a well-formed queue at the genesis's tips. -/
theorem initTripartyGenesis_queue {gs : TripartyGenesis}
    (hv : TripartyGenesis.validate k.codec gs = .ok ()) {s : ChainState ω}
    (hempty : ∀ key, s.bridge.tripartyRequest key = none) :
    Returns (k.initTripartyGenesis gs) s fun _ s' =>
      TripartyQueue s'.bridge ∧
      s'.bridge.tripartyProcessedSequenceTip = gs.tripartyProcessedSequenceTip ∧
      s'.bridge.tripartyRequestSequenceTip = gs.tripartyRequestSequenceTip := by
  obtain ⟨hdelay, hp0, hle, hbounds, hgap⟩ := TripartyGenesis.validate_eq_ok hv
  refine (returns_initTripartyGenesis gs hdelay s).mono fun _ s' ⟨hreq, hp, hq⟩ =>
    ⟨⟨by omega, by omega, fun n hlo hhi => ?_, fun key r h => ?_⟩, hp, hq⟩
  · -- a sequence in the range is pending, and its key was written
    obtain ⟨req, hmem, rfl⟩ := TripartyGenesis.gapless_pending hgap (hp ▸ hlo) (hq ▸ hhi)
    rw [hreq]
    exact Option.isSome_iff_exists.1 (writeAll_isSome _ _ _ hmem)
  · -- what is stored was written, since the store began empty
    rw [hreq] at h
    rcases writeAll_eq_some _ _ h with h' | ⟨req, hmem, hkey, hr⟩
    · rw [hempty] at h'
      cases h'
    · simp only [id] at hr
      subst hr
      have := hbounds _ hmem
      exact ⟨hkey.symm, by omega, by omega⟩

end load

end Keeper

end Mezod
