import Mezod.Bridge.Keeper.Abci

/-! # The AssetsUnlocked log and its query (`x/bridge/keeper/assets_unlocked.go`,
`x/bridge/keeper/query_server.go`)

The bridge records each bridge-out as an `AssetsUnlockedEvent` under the key of its unlock
sequence, and the sidecar and the bridge worker read them back, a range of sequences at a time,
through the `AssetsUnlockedEvents` query. The log is `UnlockedLog`: the stored events are
exactly those of sequences `1, …, tip`, each under its own key. A saved bridge-out is the event
of sequence `tip + 1`, so the log grows by one; a refused one changes nothing; the settings that
change between bridge-outs write none of the log. On such a log the query returns the stored
events of the requested range, clipped at the tip, in order, or one of its three request
errors; its `not found` error is unreachable (`assetsUnlocked_run`). -/

namespace Mezod
open Go KeeperM EStateM

/-- `!i.IsNil() && !i.IsPositive()`. -/
def MathInt.isSetNonPositive : MathInt → Bool
  | some x => decide (x ≤ 0)
  | none => false

namespace Keeper
variable {ω : Type} (k : Keeper ω)

/-- `SetBridgeOutPaused`. -/
def setBridgeOutPaused (isPaused : Bool) : KeeperM ω Unit :=
  modifyStore fun b => { b with bridgeOutPaused := isPaused }

/-- The key of a target chain under `BridgeOutChainKeyPrefix`, set or deleted. -/
def setBridgeOutChainEnabled (chain : UInt8) (enabled : Bool) : KeeperM ω Unit :=
  modifyStore fun b =>
    { b with bridgeOutChainEnabled := Function.update b.bridgeOutChainEnabled chain enabled }

/-- `EnableBridgeOutChain`. -/
def enableBridgeOutChain (chain : UInt8) : KeeperM ω Unit :=
  setBridgeOutChainEnabled chain true

/-- `DisableBridgeOutChain`. -/
def disableBridgeOutChain (chain : UInt8) : KeeperM ω Unit :=
  setBridgeOutChainEnabled chain false

/-! ## The query -/

/-- `GetAssetsUnlocked`. -/
def getAssetsUnlocked (store : BridgeStore) (sequence : Int) : Option AssetsUnlockedEvent :=
  store.assetsUnlocked (sequenceKey sequence)

/-- The loop of `AssetsUnlockedEvents`: the events of the `n` sequences from `seq` on, or its
error at the first one missing. -/
def collectAssetsUnlocked (store : BridgeStore) : Int → Nat →
    Except String (List AssetsUnlockedEvent)
  | _, 0 => .ok []
  | seq, n + 1 =>
    match getAssetsUnlocked store seq with
    | none => .error "event from requested sequence range not found"
    | some event => do
      let events ← collectAssetsUnlocked store (seq + 1) n
      return event :: events

/-- The first check of `AssetsUnlockedEvents`: a start and an end that are both given are in
order. -/
def checkSequenceOrder : MathInt → MathInt → Except String Unit
  | some start, some stop =>
    if stop ≤ start then .error "sequence start is not lower than sequence end" else .ok ()
  | _, _ => .ok ()

/-- `AssetsUnlockedEvents` on a request's `SequenceStart` and `SequenceEnd`. The loop from
`start` while below `stop` makes `stop - start` steps, none when that is not positive. -/
def assetsUnlockedEvents (store : BridgeStore) (sequenceStart sequenceEnd : MathInt) :
    Except String (List AssetsUnlockedEvent) := do
  checkSequenceOrder sequenceStart sequenceEnd
  (if sequenceStart.isSetNonPositive || sequenceEnd.isSetNonPositive then
    throw "invalid non-positive sequence range" else pure ())
  let sequenceTip := store.assetsUnlockedSequenceTip
  if sequenceTip = 0 then
    pure []
  else
    let start := sequenceStart.getD 1
    let stop := match sequenceEnd with
      | none => sequenceTip + 1
      | some stop => min stop (sequenceTip + 1)
    (if stop - start > 10000 then throw "requested sequence range exceeds 10000" else pure ())
    collectAssetsUnlocked store start (stop - start).toNat

/-! ## The log -/

/-- The AssetsUnlocked log: the stored events are exactly those of sequences `1, …, tip`, each
under the key of its sequence. -/
structure UnlockedLog (b : BridgeStore) : Prop where
  tip_nonneg : 0 ≤ b.assetsUnlockedSequenceTip
  stored : ∀ n, 0 < n → n ≤ b.assetsUnlockedSequenceTip →
    ∃ e, b.assetsUnlocked (sequenceKey n) = some e ∧ e.unlockSequence = n
  only : ∀ key e, b.assetsUnlocked key = some e →
    0 < e.unlockSequence ∧ e.unlockSequence ≤ b.assetsUnlockedSequenceTip ∧
      key = sequenceKey e.unlockSequence

/-- `events` are the stored events of the `n` sequences from `start` on, in order. -/
def RangeOf (b : BridgeStore) (start : Int) (n : Nat) (events : List AssetsUnlockedEvent) :
    Prop :=
  events.map (·.unlockSequence) = Sequence.range (start - 1) n ∧
    ∀ e ∈ events, getAssetsUnlocked b e.unlockSequence = some e

namespace UnlockedLog
variable {b : BridgeStore}

theorem congr {b' : BridgeStore} (h : UnlockedLog b) (he : b'.assetsUnlocked = b.assetsUnlocked)
    (ht : b'.assetsUnlockedSequenceTip = b.assetsUnlockedSequenceTip) : UnlockedLog b' := by
  obtain ⟨h₀, h₁, h₂⟩ := h
  rw [← he, ← ht] at *
  exact ⟨h₀, h₁, h₂⟩

theorem append (h : UnlockedLog b) {e : AssetsUnlockedEvent}
    (he : e.unlockSequence = b.assetsUnlockedSequenceTip + 1) :
    UnlockedLog { b with
      assetsUnlockedSequenceTip := b.assetsUnlockedSequenceTip + 1
      assetsUnlocked := Function.update b.assetsUnlocked
        (sequenceKey (b.assetsUnlockedSequenceTip + 1)) (some e) } where
  tip_nonneg := by
    have := h.tip_nonneg
    dsimp only
    omega
  stored n hn hle := by
    dsimp only at hle ⊢
    by_cases hn' : n = b.assetsUnlockedSequenceTip + 1
    · subst hn'
      exact ⟨e, Function.update_self .., he⟩
    · -- an older sequence has a key of its own, which the write misses
      have hkey : sequenceKey n ≠ sequenceKey (b.assetsUnlockedSequenceTip + 1) := fun hk =>
        hn' (sequenceKey_inj hn (by have := h.tip_nonneg; omega) hk)
      rw [Function.update_of_ne hkey]
      exact h.stored n hn (by omega)
  only key e' he' := by
    dsimp only at he' ⊢
    by_cases hk : key = sequenceKey (b.assetsUnlockedSequenceTip + 1)
    · subst hk
      rw [Function.update_self, Option.some.injEq] at he'
      subst he'
      have := h.tip_nonneg
      exact ⟨by omega, by omega, by rw [he]⟩
    · rw [Function.update_of_ne hk] at he'
      obtain ⟨h₁, h₂, h₃⟩ := h.only key e' he'
      exact ⟨h₁, by omega, h₃⟩

theorem collectAssetsUnlocked_eq (h : UnlockedLog b) :
    ∀ (n : Nat) (seq : Int), 0 < seq → seq + n ≤ b.assetsUnlockedSequenceTip + 1 →
      ∃ events, collectAssetsUnlocked b seq n = .ok events ∧ RangeOf b seq n events
  | 0, _, _, _ => ⟨[], rfl, by simp [RangeOf]⟩
  | n + 1, seq, hseq, hle => by
    obtain ⟨e, he, hes⟩ := h.stored seq hseq (by omega)
    obtain ⟨events, hrun, hmap, hmem⟩ :=
      collectAssetsUnlocked_eq h n (seq + 1) (by omega) (by omega)
    refine ⟨e :: events, ?_, ?_, ?_⟩
    · simp only [collectAssetsUnlocked, getAssetsUnlocked, he, hrun]
      rfl
    · rw [List.map_cons, hmap, hes, Sequence.range_succ, Int.sub_add_cancel, Int.add_sub_cancel]
    · intro e' he'
      rcases List.mem_cons.1 he' with rfl | he'
      · rw [hes]
        exact he
      · exact hmem e' he'

end UnlockedLog

section query
variable {b : BridgeStore}

theorem checkSequenceOrder_cases (sequenceStart sequenceEnd : MathInt) :
    checkSequenceOrder sequenceStart sequenceEnd = .ok () ∨
      checkSequenceOrder sequenceStart sequenceEnd =
        .error "sequence start is not lower than sequence end" := by
  unfold checkSequenceOrder
  split
  · split
    · exact .inr rfl
    · exact .inl rfl
  · exact .inl rfl

theorem getD_pos {sequenceStart : MathInt} (h : sequenceStart.isSetNonPositive = false) :
    0 < sequenceStart.getD 1 := by
  cases sequenceStart with
  | none => decide
  | some x =>
    simp only [MathInt.isSetNonPositive, decide_eq_false_iff_not] at h
    simp only [Option.getD_some]
    omega

/-- The query on the log: the stored events of the requested range, from its start (one by
default) to its end clipped at `tip + 1`, or one of the request's own errors. -/
theorem assetsUnlockedEvents_cases (h : UnlockedLog b) (sequenceStart sequenceEnd : MathInt) :
    let tip := b.assetsUnlockedSequenceTip
    let start := sequenceStart.getD 1
    let stop := min (sequenceEnd.getD (tip + 1)) (tip + 1)
    (∃ events, assetsUnlockedEvents b sequenceStart sequenceEnd = .ok events ∧
        RangeOf b start (stop - start).toNat events) ∨
      ∃ msg, assetsUnlockedEvents b sequenceStart sequenceEnd = .error msg ∧
        (msg = "sequence start is not lower than sequence end" ∨
          msg = "invalid non-positive sequence range" ∨
          msg = "requested sequence range exceeds 10000") := by
  intro tip start stop
  -- the end the loop runs to is the requested one clipped at `tip + 1`
  have hstop : (match sequenceEnd with
      | none => tip + 1
      | some stop => min stop (tip + 1)) = stop := by
    cases sequenceEnd <;> simp [stop]
  rcases checkSequenceOrder_cases sequenceStart sequenceEnd with h₁ | h₁
  swap
  · exact .inr ⟨_, by simp [assetsUnlockedEvents, h₁], .inl rfl⟩
  cases h₂ : sequenceStart.isSetNonPositive || sequenceEnd.isSetNonPositive
  case true =>
    refine .inr ⟨_, ?_, .inr (.inl rfl)⟩
    simp only [assetsUnlockedEvents, h₁, h₂, except_bind_ok, if_true]
    rfl
  have hstart : 0 < start := getD_pos (Bool.or_eq_false_iff.1 h₂).1
  -- past the two checks, the query is its body on the tip
  have hbody : assetsUnlockedEvents b sequenceStart sequenceEnd =
      if tip = 0 then pure [] else
        (if stop - start > 10000 then throw "requested sequence range exceeds 10000"
          else pure ()) >>= fun _ => collectAssetsUnlocked b start (stop - start).toNat := by
    simp only [assetsUnlockedEvents, h₁, h₂, except_bind_ok, Bool.false_eq_true, if_false,
      pure_bind]
    rw [hstop]
  rw [hbody]
  by_cases h₀ : tip = 0
  · rw [if_pos h₀]
    have : (stop - start).toNat = 0 := by omega
    rw [this]
    exact .inl ⟨[], rfl, rfl, by simp⟩
  rw [if_neg h₀]
  by_cases h₃ : stop - start > 10000
  · rw [if_pos h₃]
    exact .inr ⟨_, rfl, .inr (.inr rfl)⟩
  rw [if_neg h₃, pure_bind]
  -- a range that is empty is found at once; one that is not ends at or below `tip + 1`
  by_cases hle : stop ≤ start
  · have : (stop - start).toNat = 0 := by omega
    rw [this]
    exact .inl ⟨[], rfl, rfl, by simp⟩
  · obtain ⟨events, hc, hr⟩ := h.collectAssetsUnlocked_eq (stop - start).toNat start hstart
      (by omega)
    exact .inl ⟨events, hc, hr⟩

end query

/-! ## Runs of bridge-outs -/

/-- The operations of a run of bridge-outs: the bridge-outs themselves, and the pause flag, the
enabled chains, the outflow limits and the end-blocker's resets changing between them. -/
inductive UnlockOp where
  | saveAssetsUnlocked (blockTime : Int64) (recipient token sender : Bytes) (amount : Int)
      (chain : UInt8)
  | setBridgeOutPaused (isPaused : Bool)
  | enableBridgeOutChain (chain : UInt8)
  | disableBridgeOutChain (chain : UInt8)
  | setOutflowLimit (token : Bytes) (limit : Int)
  | endBlock (blockHeight : Int64)

/-- An operation, as the keeper runs it; a returned event is dropped. -/
def unlockOp : UnlockOp → KeeperM ω Unit
  | .saveAssetsUnlocked blockTime recipient token sender amount chain => do
    let _ ← k.saveAssetsUnlocked blockTime recipient token sender amount chain
  | .setBridgeOutPaused isPaused => setBridgeOutPaused isPaused
  | .enableBridgeOutChain chain => enableBridgeOutChain chain
  | .disableBridgeOutChain chain => disableBridgeOutChain chain
  | .setOutflowLimit token limit => setOutflowLimit token limit
  | .endBlock blockHeight => k.endBlock blockHeight

/-- The step lemma of the run: a saved bridge-out grows the log by its event, and every other
committed operation writes none of it. -/
theorem UnlockedLog.step {k : Keeper ω} (op : UnlockOp) {s : ChainState ω}
    (h : UnlockedLog s.bridge) : UnlockedLog (commit (k.unlockOp op) s).bridge := by
  cases op with
  | saveAssetsUnlocked blockTime recipient token sender amount chain =>
    simp only [unlockOp, commit_bind_pure]
    refine commit_cases (P := fun s' : ChainState ω => UnlockedLog s'.bridge)
      (fun event s' hrun => ?_) h
    obtain ⟨-, hseq, rfl⟩ := saveAssetsUnlocked_eq_ok hrun
    exact (h.append hseq).congr rfl rfl
  | endBlock blockHeight =>
    refine commit_cases (P := fun s' : ChainState ω => UnlockedLog s'.bridge)
      (fun _ s' hrun => ?_) h
    obtain rfl := endBlock_eq_ok hrun
    exact h.congr rfl rfl
  | setBridgeOutPaused isPaused => exact h.congr rfl rfl
  | enableBridgeOutChain chain => exact h.congr rfl rfl
  | disableBridgeOutChain chain => exact h.congr rfl rfl
  | setOutflowLimit token limit => exact h.congr rfl rfl

/-- The AssetsUnlocked log over any run of bridge-outs. From a store whose events are exactly
those of sequences `1, …, tip`, every state of the run keeps that log, and the query on it
returns the stored events of the requested range clipped at `tip + 1`, in order, or one of its
request errors, never its `not found` error. A saved bridge-out is the event of sequence
`tip + 1`, stored under its key with the tip moved to it; a refused one leaves the state, and
so the tip, the events and the outflow counters, as it was. -/
theorem assetsUnlocked_run :
    (∀ (ops : List UnlockOp) (s : ChainState ω), UnlockedLog s.bridge →
      let b := (runAll k.unlockOp ops s).bridge
      let tip := b.assetsUnlockedSequenceTip
      UnlockedLog b ∧ ∀ sequenceStart sequenceEnd : MathInt,
        let start := sequenceStart.getD 1
        let stop := min (sequenceEnd.getD (tip + 1)) (tip + 1)
        (∃ events, assetsUnlockedEvents b sequenceStart sequenceEnd = .ok events ∧
            RangeOf b start (stop - start).toNat events) ∨
          ∃ msg, assetsUnlockedEvents b sequenceStart sequenceEnd = .error msg ∧
            (msg = "sequence start is not lower than sequence end" ∨
              msg = "invalid non-positive sequence range" ∨
              msg = "requested sequence range exceeds 10000")) ∧
    (∀ (blockTime : Int64) (recipient token sender : Bytes) (amount : Int) (chain : UInt8)
      (s s' : ChainState ω) (event : AssetsUnlockedEvent),
      (k.saveAssetsUnlocked blockTime recipient token sender amount chain).run s = .ok event s' →
        event.unlockSequence = s.bridge.assetsUnlockedSequenceTip + 1 ∧
        s'.bridge.assetsUnlockedSequenceTip = s.bridge.assetsUnlockedSequenceTip + 1 ∧
        s'.bridge.assetsUnlocked = Function.update s.bridge.assetsUnlocked
          (sequenceKey (s.bridge.assetsUnlockedSequenceTip + 1)) (some event)) ∧
    (∀ (blockTime : Int64) (recipient token sender : Bytes) (amount : Int) (chain : UInt8)
      (s s' : ChainState ω) (err : GoError),
      (k.saveAssetsUnlocked blockTime recipient token sender amount chain).run s = .error err s' →
        s' = s) := by
  refine ⟨fun ops s h => ?_, fun _ _ _ _ _ _ _ _ _ hrun => ?_,
    fun _ _ _ _ _ _ _ _ _ hrun => saveAssetsUnlocked_eq_error hrun⟩
  · have hlog := runAll_induction k.unlockOp (A := fun _ => True)
      (I := fun s : ChainState ω => UnlockedLog s.bridge) (fun op _ _ h => h.step op) ops
      (fun _ _ => trivial) s h
    exact ⟨hlog, fun sequenceStart sequenceEnd => assetsUnlockedEvents_cases hlog _ _⟩
  · obtain ⟨-, hseq, rfl⟩ := saveAssetsUnlocked_eq_ok hrun
    exact ⟨hseq, rfl, rfl⟩

/-- The empty store is a log, and it stays one over a run of BTC bridge-outs on a keeper whose EVM
calls change nothing: the first and the last are saved under sequences 1 and 2, and the one made
while bridge-out is paused is refused. -/
theorem assetsUnlocked_run_btc :
    let k := Keeper.idle (AddressCodec.goEthereum fun _ => none)
    let btc := k.codec.hexToAddress btcTokenPrecompileAddress
    let s : ChainState Unit := ⟨{ BridgeStore.empty with
      sourceBTCToken := List.replicate 20 0x11, outflowLimit := fun _ => 100 }, ()⟩
    let ops := [UnlockOp.enableBridgeOutChain 0, .saveAssetsUnlocked 0 [1] btc [3] 5 0,
      .setBridgeOutPaused true, .saveAssetsUnlocked 0 [1] btc [3] 5 0,
      .setBridgeOutPaused false, .saveAssetsUnlocked 0 [1] btc [3] 5 0]
    UnlockedLog s.bridge ∧ UnlockedLog (runAll k.unlockOp ops s).bridge ∧
      (runAll k.unlockOp ops s).bridge.assetsUnlockedSequenceTip = 2 ∧
      (assetsUnlockedEvents (runAll k.unlockOp ops s).bridge none none).map
        (·.map (·.unlockSequence)) = .ok [1, 2] := by
  intro k btc s ops
  have h : UnlockedLog s.bridge :=
    ⟨le_rfl, fun n hn hle => absurd hle (by simp [s, BridgeStore.empty]; omega),
      fun _ _ he => by cases he⟩
  exact ⟨h, ((assetsUnlocked_run k).1 ops s h).1, by decide +kernel, by decide +kernel⟩

end Keeper

end Mezod
