import Mezod.Bridge.Keeper.Store

/-! # Accepting AssetsLocked deposits (`x/bridge/keeper/assets_locked.go`)

`AcceptAssetsLocked` takes the canonical events of a block and mints what each of them
deposited. Three checks come before any write: the list is not empty, it is valid (every event
valid, the sequences rising by one), and it starts one past the stored tip. After them every
event is visited, and a deposit that cannot be minted (a blocked recipient, a token without a
mapping, a failing ERC20 mint) is skipped, not retried; then the tip moves to the last
sequence. So the tip says which deposits were processed, minted or not.

The exactly-once property rests on that: the tip is written by this function only (and by
`InitGenesis`), the checks run before the writes, and the loop in between reaches the tip only
through the EVM, which `EvmKeeper.KeepsAssetsLockedSequenceTip` says it does not. Over a run of
calls, `SequencesCovered` then holds: the events of the calls that returned nil carry the
sequences from the tip at the start to the tip now, each once. -/

namespace Mezod
open Go KeeperM

/-- `math.Int.String`: the decimal digits, `<nil>` for nil. -/
def MathInt.toString : MathInt → String
  | some x => ToString.toString x
  | none => "<nil>"

/-- The EVM calls leave the AssetsLocked tip alone: only `AcceptAssetsLocked` and `InitGenesis`
write it, and no precompile reaches either. -/
def EvmKeeper.KeepsAssetsLockedSequenceTip {ω : Type} (evm : EvmKeeper ω) : Prop :=
  ∀ call s s', evm.executeContractCall call s = .ok s' →
    s'.bridge.assetsLockedSequenceTip = s.bridge.assetsLockedSequenceTip

theorem Keeper.idle_keepsAssetsLockedSequenceTip (codec : AddressCodec) :
    (Keeper.idle codec).evmKeeper.KeepsAssetsLockedSequenceTip := fun _ _ _ h => by
  cases h
  rfl

namespace Keeper
variable {ω : Type} (k : Keeper ω)

/-- `GetAssetsLockedSequenceTip`. -/
def getAssetsLockedSequenceTip : KeeperM ω Int := do
  return (← getStore).assetsLockedSequenceTip

/-- `setAssetsLockedSequenceTip`. -/
def setAssetsLockedSequenceTip (sequenceTip : Int) : KeeperM ω Unit :=
  modifyStore fun b => { b with assetsLockedSequenceTip := sequenceTip }

/-- `GetSourceBTCToken`. -/
def getSourceBTCToken : KeeperM ω Bytes := do
  return (← getStore).sourceBTCToken

/-- `GetERC20TokenMapping`: the mapping stored under the source token. -/
def getERC20TokenMapping (sourceToken : Bytes) : KeeperM ω (Option ERC20TokenMapping) := do
  return (← getStore).erc20TokenMappings.lookup sourceToken

/-- `IncreaseBTCMinted`; it always returns nil. -/
def increaseBTCMinted (amount : Int) : KeeperM ω Unit :=
  modifyStore fun b => { b with btcMinted := b.btcMinted + amount }

/-- `mintBTC`: mint to the module account, send to the recipient, count the supply. -/
def mintBTC (recipient : Bytes) (amount : Int) : KeeperM ω Unit := do
  liftWorld "failed to mint coins" (k.bankKeeper.mintCoins amount)
  liftWorld "failed to send coins" (k.bankKeeper.sendCoinsFromModuleToAccount recipient amount)
  -- `IncreaseBTCMinted` never fails, so "failed to increase btc minted" cannot arise
  increaseBTCMinted amount

/-- `mintERC20`: a `mint(address,uint256)` call on the token contract, from the module. -/
def mintERC20 (recipient token : Bytes) (amount : Int) : KeeperM ω Unit := do
  let call ← liftExcept "failed to create ERC20 mint call"
    (k.calls.newERC20MintCall k.moduleAddress token recipient amount)
  liftChain "failed to execute ERC20 mint call" (k.evmKeeper.executeContractCall call)

/-- One round of the loop of `AcceptAssetsLocked`. The amount is read with `getD`: the events
reaching the loop are valid, so it is set. The text of the SDK's Bech32 error is not kept. -/
def acceptAssetsLockedEvent (sourceBTCToken : Bytes) (event : AssetsLockedEvent) :
    KeeperM ω Unit :=
  match k.codec.accAddressFromBech32 event.recipient with
  | none => throw (.error "failed to parse recipient address")
  | some recipient =>
    -- a blocked recipient: nothing is minted and the funds stay locked in the bridge
    if k.blockedAddrs recipient then pure ()
    else if event.tokenBytes k.codec = sourceBTCToken then
      withContext ("failed to mint BTC for event " ++ event.sequence.toString)
        (k.mintBTC recipient (event.amount.getD 0))
    else do
      match ← getERC20TokenMapping (event.tokenBytes k.codec) with
      -- no mapping: the event is skipped and never processed again
      | none => pure ()
      -- an ERC20 mint that fails is logged and skipped, so that one contract cannot halt
      -- the chain
      | some mapping =>
        ignoreError (k.mintERC20 recipient (k.codec.hexToAddress mapping.mezoToken)
          (event.amount.getD 0))

/-- `AcceptAssetsLocked`. The new tip is read with `getD`, as the list is valid by then. -/
def acceptAssetsLocked (events : List AssetsLockedEvent) : KeeperM ω Unit :=
  match events with
  | [] => throw (.error "empty AssetsLocked sequence")
  | first :: rest => do
    if !AssetsLockedEvents.isValid k.codec (first :: rest) then
      throw (.error "invalid AssetsLocked sequence")
    let currentSequenceTip ← getAssetsLockedSequenceTip
    let expectedSequenceStart := currentSequenceTip + 1
    if first.sequence ≠ some expectedSequenceStart then
      throw (.error ("unexpected AssetsLocked sequence start; expected " ++
        toString expectedSequenceStart ++ ", got " ++ first.sequence.toString))
    let sourceBTCToken ← getSourceBTCToken
    (first :: rest).forM (k.acceptAssetsLockedEvent sourceBTCToken)
    setAssetsLockedSequenceTip
      (((first :: rest).getLast (List.cons_ne_nil first rest)).sequence.getD 0)

@[simp] theorem run_getAssetsLockedSequenceTip (s : ChainState ω) :
    (getAssetsLockedSequenceTip : KeeperM ω Int).run s = .ok s.bridge.assetsLockedSequenceTip s :=
  rfl

@[simp] theorem run_setAssetsLockedSequenceTip (sequenceTip : Int) (s : ChainState ω) :
    (setAssetsLockedSequenceTip sequenceTip : KeeperM ω Unit).run s =
      .ok () { s with bridge := { s.bridge with assetsLockedSequenceTip := sequenceTip } } :=
  rfl

@[simp] theorem run_getSourceBTCToken (s : ChainState ω) :
    (getSourceBTCToken : KeeperM ω Bytes).run s = .ok s.bridge.sourceBTCToken s :=
  rfl

/-- A run of `AcceptAssetsLocked` calls, each from the state the one before left, whether it
returned nil or an error: the event lists of the calls that returned nil, and the last state. -/
def acceptAssetsLockedRun : List (List AssetsLockedEvent) → ChainState ω →
    List (List AssetsLockedEvent) × ChainState ω
  | [], s => ([], s)
  | events :: calls, s =>
    match (k.acceptAssetsLocked events).run s with
    | .ok _ s' =>
      (events :: (acceptAssetsLockedRun calls s').1, (acceptAssetsLockedRun calls s').2)
    | .error _ s' => acceptAssetsLockedRun calls s'

/-! ## The three checks -/

section checks
variable {k} {first : AssetsLockedEvent} {rest : List AssetsLockedEvent}

theorem run_acceptAssetsLocked_nil (s : ChainState ω) :
    (k.acceptAssetsLocked []).run s = .error (.error "empty AssetsLocked sequence") s :=
  rfl

theorem run_acceptAssetsLocked_of_isValid_eq_false
    (hv : AssetsLockedEvents.isValid k.codec (first :: rest) = false) (s : ChainState ω) :
    (k.acceptAssetsLocked (first :: rest)).run s =
      .error (.error "invalid AssetsLocked sequence") s := by
  simp [acceptAssetsLocked, hv]

theorem run_acceptAssetsLocked_of_start_ne (hv : AssetsLockedEvents.isValid k.codec (first :: rest))
    {s : ChainState ω} (hs : first.sequence ≠ some (s.bridge.assetsLockedSequenceTip + 1)) :
    (k.acceptAssetsLocked (first :: rest)).run s =
      .error (.error ("unexpected AssetsLocked sequence start; expected " ++
        toString (s.bridge.assetsLockedSequenceTip + 1) ++ ", got " ++
        first.sequence.toString)) s := by
  simp [acceptAssetsLocked, hv, hs]

theorem run_acceptAssetsLocked_of_checks (hv : AssetsLockedEvents.isValid k.codec (first :: rest))
    {s : ChainState ω} (hs : first.sequence = some (s.bridge.assetsLockedSequenceTip + 1)) :
    (k.acceptAssetsLocked (first :: rest)).run s =
      ((first :: rest).forM (k.acceptAssetsLockedEvent s.bridge.sourceBTCToken) >>= fun _ =>
        setAssetsLockedSequenceTip
          (((first :: rest).getLast (List.cons_ne_nil first rest)).sequence.getD 0)).run s := by
  simp only [acceptAssetsLocked, hv, Bool.not_true, Bool.false_eq_true, if_false,
    EStateM.run_bind, run_getAssetsLockedSequenceTip, hs, ne_eq, not_true_eq_false,
    run_getSourceBTCToken]

theorem acceptAssetsLocked_of_checks_fail {events : List AssetsLockedEvent} {s : ChainState ω}
    (h : events = [] ∨ AssetsLockedEvents.isValid k.codec events = false ∨
      events.head?.map (·.sequence) ≠ some (some (s.bridge.assetsLockedSequenceTip + 1))) :
    ∃ err, (k.acceptAssetsLocked events).run s = .error err s := by
  cases events with
  | nil => exact ⟨_, run_acceptAssetsLocked_nil s⟩
  | cons first rest =>
    cases hv : AssetsLockedEvents.isValid k.codec (first :: rest) with
    | false => exact ⟨_, run_acceptAssetsLocked_of_isValid_eq_false hv s⟩
    | true =>
      have hs : first.sequence ≠ some (s.bridge.assetsLockedSequenceTip + 1) := by
        simpa [hv] using h
      exact ⟨_, run_acceptAssetsLocked_of_start_ne hv hs⟩

/-- A call that returns nil passed its checks, and the tip is now its last sequence. -/
theorem acceptAssetsLocked_eq_ok {events : List AssetsLockedEvent} {s s' : ChainState ω}
    (h : (k.acceptAssetsLocked events).run s = .ok () s') :
    ∃ first rest, events = first :: rest ∧ AssetsLockedEvents.isValid k.codec events ∧
      first.sequence = some (s.bridge.assetsLockedSequenceTip + 1) ∧
      s'.bridge.assetsLockedSequenceTip =
        ((first :: rest).getLast (List.cons_ne_nil first rest)).sequence.getD 0 := by
  cases events with
  | nil => cases h
  | cons first rest =>
    cases hv : AssetsLockedEvents.isValid k.codec (first :: rest) with
    | false => rw [run_acceptAssetsLocked_of_isValid_eq_false hv] at h; cases h
    | true =>
      by_cases hs : first.sequence = some (s.bridge.assetsLockedSequenceTip + 1)
      · refine ⟨first, rest, rfl, rfl, hs, ?_⟩
        rw [run_acceptAssetsLocked_of_checks hv hs, EStateM.run_bind] at h
        split at h
        · rw [run_setAssetsLockedSequenceTip] at h
          cases h
          rfl
        · cases h
      · rw [run_acceptAssetsLocked_of_start_ne hv hs] at h; cases h

theorem acceptAssetsLocked_ok_sequences {events : List AssetsLockedEvent} {s s' : ChainState ω}
    (h : (k.acceptAssetsLocked events).run s = .ok () s') :
    s'.bridge.assetsLockedSequenceTip = s.bridge.assetsLockedSequenceTip + events.length ∧
      events.map (·.sequence) = (List.range events.length).map
        fun i : Nat => some (s.bridge.assetsLockedSequenceTip + 1 + i) := by
  obtain ⟨first, rest, rfl, hv, hs, htip⟩ := acceptAssetsLocked_eq_ok h
  have hseq := AssetsLockedEvents.sequences_of_isStrictlyIncreasingSequence
    (s := s.bridge.assetsLockedSequenceTip + 1)
    (AssetsLockedEvents.isStrictlyIncreasingSequence_of_isValid hv) (by simp [hs])
  refine ⟨?_, hseq⟩
  rw [htip, AssetsLockedEvents.sequence_getLast_of_map_sequence _ hseq, Option.getD_some]
  simp only [List.length_cons, Nat.add_sub_cancel]
  omega

end checks

/-! ## The tip between the checks and the write

Nothing the loop calls writes the tip: the bank keeper acts outside the bridge store, the supply
counter is another key, and the EVM keeps it by `KeepsAssetsLockedSequenceTip`. -/

section tip
variable {k}

theorem mintBTC_keeps_tip (recipient : Bytes) (amount t : Int) :
    EStateM.Preserves (fun s : ChainState ω => s.bridge.assetsLockedSequenceTip = t)
      (k.mintBTC recipient amount) :=
  EStateM.preserves_bind (preserves_liftWorld fun _ _ h => h) fun _ =>
    EStateM.preserves_bind (preserves_liftWorld fun _ _ h => h) fun _ =>
      preserves_modifyStore fun _ h => h

theorem mintERC20_keeps_tip (hevm : k.evmKeeper.KeepsAssetsLockedSequenceTip)
    (recipient token : Bytes) (amount t : Int) :
    EStateM.Preserves (fun s : ChainState ω => s.bridge.assetsLockedSequenceTip = t)
      (k.mintERC20 recipient token amount) :=
  EStateM.preserves_bind preserves_liftExcept fun call =>
    preserves_liftChain fun s s' hcall hs => (hevm call s s' hcall).trans hs

theorem acceptAssetsLockedEvent_keeps_tip (hevm : k.evmKeeper.KeepsAssetsLockedSequenceTip)
    (sourceBTCToken : Bytes) (event : AssetsLockedEvent) (t : Int) :
    EStateM.Preserves (fun s : ChainState ω => s.bridge.assetsLockedSequenceTip = t)
      (k.acceptAssetsLockedEvent sourceBTCToken event) := by
  unfold acceptAssetsLockedEvent
  split
  · exact EStateM.preserves_throw _
  · split
    · exact EStateM.preserves_pure _
    · split
      · exact preserves_withContext (mintBTC_keeps_tip _ _ t)
      · -- the mapping is read, then the mint is made or the event skipped
        refine EStateM.preserves_bind
          (EStateM.preserves_bind preserves_getStore fun _ => EStateM.preserves_pure _) ?_
        rintro (_ | mapping)
        · exact EStateM.preserves_pure _
        · exact preserves_ignoreError (mintERC20_keeps_tip hevm _ _ _ t)

/-- A call that returns an error leaves the tip where it was: it failed a check, or in the loop,
before the write. -/
theorem acceptAssetsLocked_error_tip (hevm : k.evmKeeper.KeepsAssetsLockedSequenceTip)
    {events : List AssetsLockedEvent} {s s' : ChainState ω} {err : GoError}
    (h : (k.acceptAssetsLocked events).run s = .error err s') :
    s'.bridge.assetsLockedSequenceTip = s.bridge.assetsLockedSequenceTip := by
  cases events with
  | nil => cases h; rfl
  | cons first rest =>
    cases hv : AssetsLockedEvents.isValid k.codec (first :: rest) with
    | false => rw [run_acceptAssetsLocked_of_isValid_eq_false hv] at h; cases h; rfl
    | true =>
      by_cases hs : first.sequence = some (s.bridge.assetsLockedSequenceTip + 1)
      · rw [run_acceptAssetsLocked_of_checks hv hs, EStateM.run_bind] at h
        have hloop := EStateM.preserves_forM (l := first :: rest)
          (fun event _ => acceptAssetsLockedEvent_keeps_tip hevm s.bridge.sourceBTCToken event
            s.bridge.assetsLockedSequenceTip) s rfl
        split at h
        · cases h
        · rename_i e s'' hrun
          cases h
          rw [hrun] at hloop
          exact hloop
      · rw [run_acceptAssetsLocked_of_start_ne hv hs] at h; cases h; rfl

theorem acceptAssetsLocked_tip_le (hevm : k.evmKeeper.KeepsAssetsLockedSequenceTip)
    (events : List AssetsLockedEvent) (s : ChainState ω) :
    s.bridge.assetsLockedSequenceTip ≤
      ((k.acceptAssetsLocked events).run s).finalState.bridge.assetsLockedSequenceTip := by
  cases h : (k.acceptAssetsLocked events).run s with
  | ok _ s' =>
    rw [EStateM.Result.finalState_ok, (acceptAssetsLocked_ok_sequences h).1]
    omega
  | error err s' =>
    rw [EStateM.Result.finalState_error, acceptAssetsLocked_error_tip hevm h]

end tip

/-! ## Runs -/

/-- What a run of `AcceptAssetsLocked` calls keeps, from the tip `g` it started at: the tip is at
or above `g`, and the events of the calls that returned nil carry the sequences `g + 1, …, tip`
in order. -/
structure SequencesCovered (g : Int) (accepted : List AssetsLockedEvent) (s : ChainState ω) :
    Prop where
  start_le : g ≤ s.bridge.assetsLockedSequenceTip
  sequences : accepted.map (·.sequence) =
    (List.range (s.bridge.assetsLockedSequenceTip - g).toNat).map fun i : Nat => some (g + 1 + i)

namespace SequencesCovered
variable {g : Int} {accepted : List AssetsLockedEvent}

theorem start (s : ChainState ω) : SequencesCovered s.bridge.assetsLockedSequenceTip [] s :=
  ⟨le_rfl, by simp⟩

private theorem map_range_add {α : Type} (f : Nat → α) (n m : Nat) :
    (List.range n).map f ++ (List.range m).map (fun i => f (n + i)) = (List.range (n + m)).map f := by
  rw [List.range_add, List.map_append, List.map_map]
  rfl

theorem of_ok {k : Keeper ω} {events : List AssetsLockedEvent} {s s' : ChainState ω}
    (hc : SequencesCovered g accepted s) (h : (k.acceptAssetsLocked events).run s = .ok () s') :
    SequencesCovered g (accepted ++ events) s' := by
  obtain ⟨htip, hseq⟩ := acceptAssetsLocked_ok_sequences h
  have hn : (s'.bridge.assetsLockedSequenceTip - g).toNat =
      (s.bridge.assetsLockedSequenceTip - g).toNat + events.length := by
    have := hc.start_le
    omega
  refine ⟨by have := hc.start_le; omega, ?_⟩
  rw [List.map_append, hc.sequences, hseq, hn, ← map_range_add]
  congr 2
  funext i
  congr 1
  have := hc.start_le
  omega

theorem of_error {k : Keeper ω} (hevm : k.evmKeeper.KeepsAssetsLockedSequenceTip)
    {events : List AssetsLockedEvent} {s s' : ChainState ω} {err : GoError}
    (hc : SequencesCovered g accepted s) (h : (k.acceptAssetsLocked events).run s = .error err s') :
    SequencesCovered g accepted s' := by
  have htip := acceptAssetsLocked_error_tip hevm h
  exact ⟨htip ▸ hc.start_le, htip ▸ hc.sequences⟩

/-- The run lemma: by induction on the calls, each call keeps the invariant. -/
theorem acceptAssetsLockedRun {k : Keeper ω} (hevm : k.evmKeeper.KeepsAssetsLockedSequenceTip) :
    ∀ (calls : List (List AssetsLockedEvent)) {accepted : List AssetsLockedEvent}
      {s : ChainState ω}, SequencesCovered g accepted s →
      SequencesCovered g (accepted ++ (k.acceptAssetsLockedRun calls s).1.flatten)
        (k.acceptAssetsLockedRun calls s).2
  | [], _, _, hc => by simpa [Keeper.acceptAssetsLockedRun] using hc
  | events :: calls, accepted, s, hc => by
    unfold Keeper.acceptAssetsLockedRun
    split
    · rename_i s' h
      have ih := acceptAssetsLockedRun hevm calls (hc.of_ok h)
      simpa [List.append_assoc] using ih
    · rename_i err s' h
      exact acceptAssetsLockedRun hevm calls (hc.of_error hevm h)

end SequencesCovered

/-- No AssetsLocked deposit is processed twice or skipped: no call moves the tip back; a call
that returns nil moves it by the number of its events, which carry the sequences after the old
tip; a call that fails a check changes nothing; and over any run the calls that returned nil
carry exactly the sequences after the first tip up to the last, in order and each once. -/
theorem acceptAssetsLocked_exactlyOnce {k : Keeper ω}
    (hevm : k.evmKeeper.KeepsAssetsLockedSequenceTip) :
    (∀ events s, s.bridge.assetsLockedSequenceTip ≤
      ((k.acceptAssetsLocked events).run s).finalState.bridge.assetsLockedSequenceTip) ∧
    (∀ events s s', (k.acceptAssetsLocked events).run s = .ok () s' →
      s'.bridge.assetsLockedSequenceTip = s.bridge.assetsLockedSequenceTip + events.length ∧
      events.map (·.sequence) = (List.range events.length).map
        fun i : Nat => some (s.bridge.assetsLockedSequenceTip + 1 + i)) ∧
    (∀ events s, (events = [] ∨ AssetsLockedEvents.isValid k.codec events = false ∨
        events.head?.map (·.sequence) ≠ some (some (s.bridge.assetsLockedSequenceTip + 1))) →
      ∃ err, (k.acceptAssetsLocked events).run s = .error err s) ∧
    (∀ calls s,
      s.bridge.assetsLockedSequenceTip ≤
        (k.acceptAssetsLockedRun calls s).2.bridge.assetsLockedSequenceTip ∧
      (k.acceptAssetsLockedRun calls s).1.flatten.map (·.sequence) =
        (List.range ((k.acceptAssetsLockedRun calls s).2.bridge.assetsLockedSequenceTip -
          s.bridge.assetsLockedSequenceTip).toNat).map
          (fun i : Nat => some (s.bridge.assetsLockedSequenceTip + 1 + i)) ∧
      ((k.acceptAssetsLockedRun calls s).1.flatten.map (·.sequence)).Nodup) := by
  refine ⟨acceptAssetsLocked_tip_le hevm, fun _ _ _ h => acceptAssetsLocked_ok_sequences h,
    fun _ _ h => acceptAssetsLocked_of_checks_fail h, fun calls s => ?_⟩
  have hrun := (SequencesCovered.start s).acceptAssetsLockedRun hevm calls
  rw [List.nil_append] at hrun
  refine ⟨hrun.start_le, hrun.sequences, ?_⟩
  -- distinct offsets give distinct sequences
  rw [hrun.sequences]
  exact List.nodup_range.map fun i j hij => by simpa using hij

/-- Two calls on a keeper whose EVM calls change nothing: the first carries the sequences after
the tip and is accepted, its BTC minted; the second replays the first event and is refused. -/
theorem acceptAssetsLocked_exactlyOnce_replay :
    let e₁ : AssetsLockedEvent :=
      ⟨some 1, "mezo1recipient", some 100, "0x1111111111111111111111111111111111111111"⟩
    let e₂ : AssetsLockedEvent := { e₁ with sequence := some 2, amount := some 200 }
    let k := Keeper.idle (AddressCodec.goEthereum fun _ => some (List.replicate 20 7))
    let s : ChainState Unit :=
      ⟨{ BridgeStore.empty with sourceBTCToken := List.replicate 20 0x11 }, ()⟩
    let calls := [[e₁, e₂], [e₁]]
    k.evmKeeper.KeepsAssetsLockedSequenceTip ∧
      (k.acceptAssetsLockedRun calls s).1 = [[e₁, e₂]] ∧
      (k.acceptAssetsLockedRun calls s).2.bridge.assetsLockedSequenceTip = 2 ∧
      (k.acceptAssetsLockedRun calls s).2.bridge.btcMinted = 300 ∧
      ((k.acceptAssetsLockedRun calls s).1.flatten.map (·.sequence)).Nodup := by
  intro e₁ e₂ k s calls
  have hevm : k.evmKeeper.KeepsAssetsLockedSequenceTip := Keeper.idle_keepsAssetsLockedSequenceTip _
  exact ⟨hevm, by decide +kernel, by decide +kernel, by decide +kernel,
    ((acceptAssetsLocked_exactlyOnce hevm).2.2.2 calls s).2.2⟩

end Keeper

end Mezod
