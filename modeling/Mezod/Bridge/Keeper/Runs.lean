import Mezod.Bridge.Keeper.Genesis
import Mezod.Bridge.Keeper.Abci

/-! # Runs of the bridge keeper

A run interleaves the operations that touch the triparty queue and the rate limits: requests
created through the precompile, their processing at the start of each block, the end-blocker,
bridge-outs, and the settings that the owner or governance change. An operation that fails is
reverted, as a failed transaction or an uncommitted block leaves the chain as it was
(`EStateM.commit`).

Over any run from a validated genesis the triparty queue stays well formed, and the requests that
the processing hands to the mint, collected by the ghost loop, are each processed once
(`tripartyQueue_run`). Over runs of bridge-outs and end-blockers the outflow counter of a token
is the value of its `RateLimit.Window`, and within the token's limit; over runs of triparty
requests and end-blockers, likewise the triparty window (`rateLimits_run`). -/

namespace Mezod
open Go KeeperM EStateM

/-- The operations of a run. -/
inductive BridgeOp where
  | createTripartyBridgeRequest (blockHeight : Int64) (recipient : String) (amount : Int)
      (callbackData : Bytes) (controller : String)
  | processTripartyBridgeRequests (blockHeight : Int64)
  | endBlock (blockHeight : Int64)
  | saveAssetsUnlocked (blockTime : Int64) (recipient token sender : Bytes) (amount : Int)
      (chain : UInt8)
  | allowTripartyController (controller : Bytes) (isAllowed : Bool)
  | setTripartyBlockDelay (delay : Int64)
  | setTripartyPerRequestLimit (limit : Int)
  | setTripartyWindowLimit (limit : Int)
  | setBridgeInPaused (isPaused : Bool)
  | setOutflowLimit (token : Bytes) (limit : Int)

namespace BridgeOp

/-- The operations of a run of bridge-outs and end-blockers. -/
def isOutflowOp : BridgeOp → Bool
  | saveAssetsUnlocked .. => true
  | endBlock _ => true
  | _ => false

/-- The operations of a run of triparty requests and end-blockers. -/
def isWindowOp : BridgeOp → Bool
  | createTripartyBridgeRequest .. => true
  | endBlock _ => true
  | _ => false

end BridgeOp

namespace Keeper
variable {ω : Type} (k : Keeper ω)

/-- An operation, as the keeper runs it; a returned value is dropped. -/
def bridgeOp : BridgeOp → KeeperM ω Unit
  | .createTripartyBridgeRequest blockHeight recipient amount callbackData controller => do
    let _ ← k.createTripartyBridgeRequest blockHeight recipient amount callbackData controller
  | .processTripartyBridgeRequests blockHeight => k.processTripartyBridgeRequests blockHeight
  | .endBlock blockHeight => k.endBlock blockHeight
  | .saveAssetsUnlocked blockTime recipient token sender amount chain => do
    let _ ← k.saveAssetsUnlocked blockTime recipient token sender amount chain
  | .allowTripartyController controller isAllowed => allowTripartyController controller isAllowed
  | .setTripartyBlockDelay delay => setTripartyBlockDelay delay
  | .setTripartyPerRequestLimit limit => setTripartyPerRequestLimit limit
  | .setTripartyWindowLimit limit => setTripartyWindowLimit limit
  | .setBridgeInPaused isPaused => setBridgeInPaused isPaused
  | .setOutflowLimit token limit => setOutflowLimit token limit

/-! ## Ghost observations -/

/-- The requests a committed `ProcessTripartyBridgeRequests` processed, from its ghost. -/
def processedRequests : BridgeOp → ChainState ω → List TripartyBridgeRequest
  | .processTripartyBridgeRequests blockHeight, s =>
    match (k.processTripartyBridgeRequestsLog blockHeight).run s with
    | .ok log _ => log
    | .error _ _ => []
  | _, _ => []

/-- What a committed operation does to the outflow counter of `token`: a saved bridge-out of the
token charges it, and an end-blocker whose outflow window is over resets it. -/
def outflowEvents (token : Bytes) : BridgeOp → ChainState ω → List RateLimit.Event
  | .saveAssetsUnlocked blockTime recipient token' sender amount chain, s =>
    match (k.saveAssetsUnlocked blockTime recipient token' sender amount chain).run s with
    | .ok _ _ => if token' = token then [.charge amount] else []
    | .error _ _ => []
  | .endBlock blockHeight, s =>
    match (k.endBlock blockHeight).run s with
    | .ok _ _ =>
      if RateLimit.windowOver outflowResetBlocks blockHeight.toUInt64 s.bridge.lastOutflowReset
      then [.reset] else []
    | .error _ _ => []
  | _, _ => []

/-- What a committed operation does to the triparty window: a created request charges it, and an
end-blocker whose window is over resets it. -/
def windowEvents : BridgeOp → ChainState ω → List RateLimit.Event
  | .createTripartyBridgeRequest blockHeight recipient amount callbackData controller, s =>
    match (k.createTripartyBridgeRequest blockHeight recipient amount callbackData controller).run
        s with
    | .ok _ _ => [.charge amount]
    | .error _ _ => []
  | .endBlock blockHeight, s =>
    match (k.endBlock blockHeight).run s with
    | .ok _ _ =>
      if RateLimit.windowOver tripartyWindowResetBlocks blockHeight.toUInt64
        s.bridge.tripartyWindowLastReset then [.reset] else []
    | .error _ _ => []
  | _, _ => []

/-! ## The triparty queue over a run -/

section queue
variable {k} {s : ChainState ω}

theorem queue_of_frame {x : KeeperM ω Unit} (hq : TripartyQueue s.bridge)
    (hx : ∀ s', x.run s = .ok () s' →
      s'.bridge.tripartyRequest = s.bridge.tripartyRequest ∧
      s'.bridge.tripartyProcessedSequenceTip = s.bridge.tripartyProcessedSequenceTip ∧
      s'.bridge.tripartyRequestSequenceTip = s.bridge.tripartyRequestSequenceTip) :
    TripartyQueue (commit x s).bridge ∧
      (commit x s).bridge.tripartyProcessedSequenceTip = s.bridge.tripartyProcessedSequenceTip :=
  commit_cases (P := fun s' => TripartyQueue s'.bridge ∧
      s'.bridge.tripartyProcessedSequenceTip = s.bridge.tripartyProcessedSequenceTip)
    (fun _ s' h => let ⟨h₁, h₂, h₃⟩ := hx s' h; ⟨hq.congr h₁ h₂ h₃, h₂⟩) ⟨hq, rfl⟩

theorem process_step (hevm : k.evmKeeper.KeepsTripartyQueue) (blockHeight : Int64)
    (hq : TripartyQueue s.bridge) :
    let s' := commit (k.processTripartyBridgeRequests blockHeight) s
    TripartyQueue s'.bridge ∧
      s.bridge.tripartyProcessedSequenceTip ≤ s'.bridge.tripartyProcessedSequenceTip ∧
      (k.processedRequests (.processTripartyBridgeRequests blockHeight) s).map (·.sequence) =
        Sequence.range s.bridge.tripartyProcessedSequenceTip
          (s'.bridge.tripartyProcessedSequenceTip - s.bridge.tripartyProcessedSequenceTip).toNat := by
  intro s'
  -- the committed state and the log both come from the ghost loop
  have hs' : s' = commit (k.processTripartyBridgeRequestsLog blockHeight) s := by
    simp only [s', commit, run_processTripartyBridgeRequests]
    cases (k.processTripartyBridgeRequestsLog blockHeight).run s <;> rfl
  rw [hs']
  simp only [processedRequests, commit]
  rcases processTripartyBridgeRequestsLog_post hevm blockHeight hq with ⟨-, hrun⟩ | ⟨-, hpost⟩
  · rw [hrun]
    simp [hq]
  · cases hrun : (k.processTripartyBridgeRequestsLog blockHeight).run s with
    | ok log s₁ =>
      rw [hrun] at hpost
      exact ⟨hpost.queue, hpost.tip_ge, hpost.processed log s₁ rfl⟩
    | error err s₁ => simp [hq]

theorem frame_step {x : KeeperM ω Unit} {log : List TripartyBridgeRequest}
    (h : TripartyQueue (commit x s).bridge ∧
      (commit x s).bridge.tripartyProcessedSequenceTip = s.bridge.tripartyProcessedSequenceTip)
    (hlog : log = []) :
    TripartyQueue (commit x s).bridge ∧
      s.bridge.tripartyProcessedSequenceTip ≤ (commit x s).bridge.tripartyProcessedSequenceTip ∧
      log.map (·.sequence) = Sequence.range s.bridge.tripartyProcessedSequenceTip
        ((commit x s).bridge.tripartyProcessedSequenceTip -
          s.bridge.tripartyProcessedSequenceTip).toNat := by
  rw [h.2, hlog]
  exact ⟨h.1, le_rfl, by simp⟩

/-- The step lemma of the run: every operation keeps the queue and moves the processed tip up,
and what it processed are the sequences the tip walked through. -/
theorem bridgeOp_queue (hevm : k.evmKeeper.KeepsTripartyQueue) (op : BridgeOp)
    (hq : TripartyQueue s.bridge) :
    let s' := commit (k.bridgeOp op) s
    TripartyQueue s'.bridge ∧
      s.bridge.tripartyProcessedSequenceTip ≤ s'.bridge.tripartyProcessedSequenceTip ∧
      (k.processedRequests op s).map (·.sequence) =
        Sequence.range s.bridge.tripartyProcessedSequenceTip
          (s'.bridge.tripartyProcessedSequenceTip - s.bridge.tripartyProcessedSequenceTip).toNat := by
  -- every operation but the processing writes none of the queue's fields, or goes through a
  -- lemma that says how it changes them
  cases op with
  | createTripartyBridgeRequest blockHeight recipient amount callbackData controller =>
    refine frame_step ?_ rfl
    simp only [bridgeOp, commit_bind_pure]
    exact commit_cases (P := fun s' : ChainState ω => TripartyQueue s'.bridge ∧
        s'.bridge.tripartyProcessedSequenceTip = s.bridge.tripartyProcessedSequenceTip)
      (fun _ _ h => let ⟨h₁, h₂, _⟩ := createTripartyBridgeRequest_queue h hq; ⟨h₁, h₂⟩) ⟨hq, rfl⟩
  | processTripartyBridgeRequests blockHeight => exact process_step hevm blockHeight hq
  | endBlock blockHeight =>
    refine frame_step (queue_of_frame hq fun (s' : ChainState ω) h => ?_) rfl
    obtain rfl := endBlock_eq_ok h
    exact ⟨rfl, rfl, rfl⟩
  | saveAssetsUnlocked blockTime recipient token sender amount chain =>
    refine frame_step ?_ rfl
    simp only [bridgeOp, commit_bind_pure]
    exact commit_cases (P := fun s' : ChainState ω => TripartyQueue s'.bridge ∧
        s'.bridge.tripartyProcessedSequenceTip = s.bridge.tripartyProcessedSequenceTip)
      (fun _ _ h => by
        obtain ⟨-, -, rfl⟩ := saveAssetsUnlocked_eq_ok h
        exact ⟨hq.congr rfl rfl rfl, rfl⟩) ⟨hq, rfl⟩
  | setTripartyBlockDelay delay =>
    refine frame_step (queue_of_frame hq fun (s' : ChainState ω) h => ?_) rfl
    simp only [bridgeOp, setTripartyBlockDelay] at h
    split at h
    · cases h
    · cases h
      exact ⟨rfl, rfl, rfl⟩
  | allowTripartyController controller isAllowed =>
    exact frame_step (queue_of_frame hq fun _ h => by cases h; exact ⟨rfl, rfl, rfl⟩) rfl
  | setTripartyPerRequestLimit limit =>
    exact frame_step (queue_of_frame hq fun _ h => by cases h; exact ⟨rfl, rfl, rfl⟩) rfl
  | setTripartyWindowLimit limit =>
    exact frame_step (queue_of_frame hq fun _ h => by cases h; exact ⟨rfl, rfl, rfl⟩) rfl
  | setBridgeInPaused isPaused =>
    exact frame_step (queue_of_frame hq fun _ h => by cases h; exact ⟨rfl, rfl, rfl⟩) rfl
  | setOutflowLimit token limit =>
    exact frame_step (queue_of_frame hq fun _ h => by cases h; exact ⟨rfl, rfl, rfl⟩) rfl

end queue

/-- What a run from a validated genesis keeps: the queue is well formed, and the sequences
processed so far are distinct and at or below the processed tip. -/
structure ProcessedOnce (s : ChainState ω) (log : List TripartyBridgeRequest) : Prop where
  queue : TripartyQueue s.bridge
  nodup : (log.map (·.sequence)).Nodup
  le_tip : ∀ x ∈ log.map (·.sequence), x ≤ s.bridge.tripartyProcessedSequenceTip

/-- The invariant of the run, step by step: what an operation processes lies past the tip that
bounded everything before it. -/
theorem ProcessedOnce.step {k : Keeper ω} (hevm : k.evmKeeper.KeepsTripartyQueue) (op : BridgeOp)
    {s : ChainState ω} {log : List TripartyBridgeRequest} (h : ProcessedOnce s log) :
    ProcessedOnce (commit (k.bridgeOp op) s) (log ++ k.processedRequests op s) := by
  obtain ⟨hq', hle, hlog⟩ := bridgeOp_queue hevm op h.queue
  have hnew : ∀ x ∈ (k.processedRequests op s).map (·.sequence),
      s.bridge.tripartyProcessedSequenceTip < x ∧
        x ≤ (commit (k.bridgeOp op) s).bridge.tripartyProcessedSequenceTip := by
    intro x hx
    rw [hlog, Sequence.mem_range] at hx
    omega
  refine ⟨hq', ?_, fun x hx => ?_⟩
  · rw [List.map_append, List.nodup_append]
    refine ⟨h.nodup, hlog ▸ Sequence.range_nodup _ _, fun a ha b hb hab => ?_⟩
    have := h.le_tip a ha
    have := (hnew b hb).1
    omega
  · rw [List.map_append, List.mem_append] at hx
    rcases hx with hx | hx
    · exact (h.le_tip x hx).trans hle
    · exact (hnew x hx).2

/-- The triparty queue over any run from a validated genesis. The genesis, loaded into a store
with no pending request, gives a well-formed queue; every interleaving of operations keeps it;
no sequence is processed twice over the run; and from every state reached, the next
`ProcessTripartyBridgeRequests` fails only in a mint, so never in its delete, and, unless
bridge-in is paused, processes at most a batch of mature requests, in sequence order from the
processed tip, stopping at the first missing or immature one. -/
theorem tripartyQueue_run (hevm : k.evmKeeper.KeepsTripartyQueue) {gs : TripartyGenesis}
    (hv : TripartyGenesis.validate k.codec gs = .ok ()) {s₀ : ChainState ω}
    (hempty : ∀ key, s₀.bridge.tripartyRequest key = none) :
    Returns (k.initTripartyGenesis gs) s₀ fun _ s₁ => ∀ ops : List BridgeOp,
      let s := runAll k.bridgeOp ops s₁
      TripartyQueue s.bridge ∧
      ((runLog k.bridgeOp k.processedRequests ops s₁).2.map (·.sequence)).Nodup ∧
      ∀ blockHeight : Int64,
        (∀ err s', (k.processTripartyBridgeRequests blockHeight).run s = .error err s' →
          IsTripartyMintError err) ∧
        (s.bridge.bridgeInPaused = true ∧
            (k.processTripartyBridgeRequests blockHeight).run s = .ok () s ∨
          s.bridge.bridgeInPaused = false ∧
            BatchPost blockHeight s.bridge.tripartyBlockDelay tripartyBatch
              s.bridge.tripartyProcessedSequenceTip s.bridge.tripartyRequestSequenceTip
              ((k.processTripartyBridgeRequestsLog blockHeight).run s)) := by
  refine (initTripartyGenesis_queue hv hempty).mono fun _ s₁ ⟨hq₁, _, _⟩ ops => ?_
  -- the run rule, from the loaded genesis with nothing processed yet
  have hrun := runLog_induction k.bridgeOp k.processedRequests (A := fun _ => True)
    (I := ProcessedOnce) (fun op _ _ _ h => h.step hevm op) ops (fun _ _ => trivial) s₁ []
    ⟨hq₁, List.nodup_nil, by simp⟩
  rw [List.nil_append, runLog_fst] at hrun
  intro s
  refine ⟨hrun.queue, hrun.nodup, fun blockHeight => ⟨fun err s' h => ?_, ?_⟩⟩
  · -- a failure of the call is one of its ghost, which fails only in a mint
    rw [run_processTripartyBridgeRequests, EStateM.Result.map_eq_error] at h
    rcases processTripartyBridgeRequestsLog_post hevm blockHeight hrun.queue with
      ⟨-, hr⟩ | ⟨-, hpost⟩
    · rw [hr] at h
      cases h
    · exact hpost.mint_error err s' h
  · rcases processTripartyBridgeRequestsLog_post hevm blockHeight hrun.queue with
      ⟨hp, hr⟩ | ⟨hp, hpost⟩
    · exact .inl ⟨hp, by rw [run_processTripartyBridgeRequests, hr]; rfl⟩
    · exact .inr ⟨hp, hpost⟩

/-- A genesis that allows one controller, on a keeper whose EVM calls change nothing: a request
made at height 1 is processed at height 2, and the processing at height 3 finds nothing more. -/
theorem tripartyQueue_run_created :
    let k := Keeper.idle (AddressCodec.goEthereum fun _ => none)
    let gs : TripartyGenesis := ⟨["0x2222222222222222222222222222222222222222"], 1, 0, 10 ^ 18,
      0, 0, [], 0, 0, []⟩
    let ops := [BridgeOp.createTripartyBridgeRequest 1
        "0x1111111111111111111111111111111111111111" minTripartyAmount []
        "0x2222222222222222222222222222222222222222",
      .processTripartyBridgeRequests 2, .processTripartyBridgeRequests 3]
    k.evmKeeper.KeepsTripartyQueue ∧ TripartyGenesis.validate k.codec gs = .ok () ∧
      ∃ s₁, (k.initTripartyGenesis gs).run ⟨BridgeStore.empty, ()⟩ = .ok () s₁ ∧
        (runLog k.bridgeOp k.processedRequests ops s₁).2.map (·.sequence) = [1] ∧
        ((runLog k.bridgeOp k.processedRequests ops s₁).2.map (·.sequence)).Nodup := by
  intro k gs ops
  have hevm : k.evmKeeper.KeepsTripartyQueue := Keeper.idle_keepsTripartyQueue _
  have hv : TripartyGenesis.validate k.codec gs = .ok () := by decide +kernel
  obtain ⟨_, s₁, hrun, hall⟩ := tripartyQueue_run k hevm hv
    (fun _ => rfl : ∀ key, (⟨BridgeStore.empty, ()⟩ : ChainState Unit).bridge.tripartyRequest key = none)
  -- the loaded genesis is the state the run starts from
  have hlog : (runLog k.bridgeOp k.processedRequests ops s₁).2.map (·.sequence) = [1] := by
    rw [← commit_of_ok hrun]
    decide +kernel
  exact ⟨hevm, hv, s₁, hrun, hlog, (hall ops).2.1⟩

/-! ## The rate limits over a run -/

/-- What a run of bridge-outs and end-blockers keeps of the outflow of `token`: the counter is
the replay of the events from its first value `c₀`, the limit stays `L`, and the counter is
within it. -/
structure OutflowWithin (token : Bytes) (c₀ L : Int) (s : ChainState ω)
    (events : List RateLimit.Event) : Prop where
  counter : s.bridge.currentOutflow token = events.foldl RateLimit.Event.apply c₀
  limit : s.bridge.outflowLimit token = L
  le_limit : s.bridge.currentOutflow token ≤ L

/-- What a run of triparty requests and end-blockers keeps of the triparty window. -/
structure WindowWithin (c₀ L : Int) (s : ChainState ω) (events : List RateLimit.Event) : Prop where
  counter : s.bridge.tripartyWindowConsumed = events.foldl RateLimit.Event.apply c₀
  limit : s.bridge.tripartyWindowLimit = L
  le_limit : s.bridge.tripartyWindowConsumed ≤ L

section limits
variable {k} {c₀ L : Int} {s : ChainState ω} {events : List RateLimit.Event}

/-- The step lemma for the outflow: a saved bridge-out of the token fitted its capacity and is
charged, one of another token leaves the counter alone, and an end-blocker resets it when the
window is over. -/
theorem OutflowWithin.step {token : Bytes} (hL : 0 ≤ L) (op : BridgeOp)
    (hop : op.isOutflowOp = true) (h : OutflowWithin token c₀ L s events) :
    OutflowWithin token c₀ L (commit (k.bridgeOp op) s) (events ++ k.outflowEvents token op s) := by
  cases op with
  | saveAssetsUnlocked blockTime recipient token' sender amount chain =>
    simp only [bridgeOp, commit_bind_pure, outflowEvents]
    cases hrun : (k.saveAssetsUnlocked blockTime recipient token' sender amount chain).run s with
    | error err s' => simpa [commit_of_error hrun] using h
    | ok event s' =>
      rw [commit_of_ok hrun]
      obtain ⟨hcap, -, rfl⟩ := saveAssetsUnlocked_eq_ok hrun
      by_cases ht : token' = token
      · subst ht
        have hle := RateLimit.add_le_limit h.le_limit (h.limit ▸ hcap)
        rw [if_pos rfl]
        refine ⟨?_, h.limit, ?_⟩ <;> dsimp only <;> rw [Function.update_self]
        · rw [List.foldl_append, ← h.counter]
          rfl
        · exact hle
      · rw [if_neg ht, List.append_nil]
        refine ⟨?_, h.limit, ?_⟩ <;> dsimp only <;> rw [Function.update_of_ne (Ne.symm ht)]
        · exact h.counter
        · exact h.le_limit
  | endBlock blockHeight =>
    simp only [bridgeOp, outflowEvents]
    cases hrun : (k.endBlock blockHeight).run s with
    | error err s' => simpa [commit_of_error hrun] using h
    | ok u s' =>
      rw [commit_of_ok hrun, endBlock_eq_ok hrun]
      -- the reset is taken exactly when the window is over
      by_cases hover : RateLimit.windowOver outflowResetBlocks blockHeight.toUInt64
        s.bridge.lastOutflowReset
      · simp only [hover, afterResets, if_true]
        exact ⟨by simp [RateLimit.Event.apply], h.limit, hL⟩
      · simp only [hover, afterResets, Bool.false_eq_true, if_false, List.append_nil]
        exact ⟨h.counter, h.limit, h.le_limit⟩
  | _ => cases hop

/-- The step lemma for the triparty window: a created request fitted the window's capacity and
is charged, and an end-blocker resets the window when it is over. -/
theorem WindowWithin.step (hL : 0 ≤ L) (op : BridgeOp) (hop : op.isWindowOp = true)
    (h : WindowWithin c₀ L s events) :
    WindowWithin c₀ L (commit (k.bridgeOp op) s) (events ++ k.windowEvents op s) := by
  cases op with
  | createTripartyBridgeRequest blockHeight recipient amount callbackData controller =>
    simp only [bridgeOp, commit_bind_pure, windowEvents]
    cases hrun : (k.createTripartyBridgeRequest blockHeight recipient amount callbackData
        controller).run s with
    | error err s' => simpa [commit_of_error hrun] using h
    | ok seq s' =>
      rw [commit_of_ok hrun]
      obtain ⟨hcap, hconsumed, hlimit, -⟩ := createTripartyBridgeRequest_window hrun
      have hle := RateLimit.add_le_limit h.le_limit (h.limit ▸ hcap)
      refine ⟨?_, hlimit.trans h.limit, hconsumed ▸ hle⟩
      simp [hconsumed, h.counter, RateLimit.Event.apply]
  | endBlock blockHeight =>
    simp only [bridgeOp, windowEvents]
    cases hrun : (k.endBlock blockHeight).run s with
    | error err s' => simpa [commit_of_error hrun] using h
    | ok u s' =>
      rw [commit_of_ok hrun, endBlock_eq_ok hrun]
      by_cases hover : RateLimit.windowOver tripartyWindowResetBlocks blockHeight.toUInt64
        s.bridge.tripartyWindowLastReset
      · simp only [hover, afterResets, if_true]
        exact ⟨by simp [RateLimit.Event.apply], h.limit, hL⟩
      · simp only [hover, afterResets, Bool.false_eq_true, if_false, List.append_nil]
        exact ⟨h.counter, h.limit, h.le_limit⟩
  | _ => cases hop

theorem value_start (c₀ : Int) : (⟨c₀, []⟩ : RateLimit.Window).value = c₀ := by
  simp [RateLimit.Window.value]

end limits

/-- The rate limits over any run. Over a run of bridge-outs and end-blockers, the outflow of a
token is the value of its window, the first value or zero after a reset plus what was bridged out
since, and stays within the token's limit, which the run does not change; over a run of triparty
requests and end-blockers, likewise the triparty window and its limit. A bridge-out or a request
that fails, in its limit check or elsewhere, leaves the state as it was. -/
theorem rateLimits_run :
    (∀ (token : Bytes) (ops : List BridgeOp) (s : ChainState ω),
      (∀ op ∈ ops, op.isOutflowOp = true) → 0 ≤ s.bridge.outflowLimit token →
      s.bridge.currentOutflow token ≤ s.bridge.outflowLimit token →
      let s' := runAll k.bridgeOp ops s
      let w := (runLog k.bridgeOp (k.outflowEvents token) ops s).2.foldl RateLimit.Window.step
        ⟨s.bridge.currentOutflow token, []⟩
      s'.bridge.currentOutflow token = w.value ∧
        s'.bridge.outflowLimit token = s.bridge.outflowLimit token ∧
        w.value ≤ s.bridge.outflowLimit token) ∧
    (∀ (ops : List BridgeOp) (s : ChainState ω),
      (∀ op ∈ ops, op.isWindowOp = true) → 0 ≤ s.bridge.tripartyWindowLimit →
      s.bridge.tripartyWindowConsumed ≤ s.bridge.tripartyWindowLimit →
      let s' := runAll k.bridgeOp ops s
      let w := (runLog k.bridgeOp k.windowEvents ops s).2.foldl RateLimit.Window.step
        ⟨s.bridge.tripartyWindowConsumed, []⟩
      s'.bridge.tripartyWindowConsumed = w.value ∧
        s'.bridge.tripartyWindowLimit = s.bridge.tripartyWindowLimit ∧
        w.value ≤ s.bridge.tripartyWindowLimit) ∧
    (∀ (blockTime : Int64) (recipient token sender : Bytes) (amount : Int) (chain : UInt8)
      (s s' : ChainState ω) (err : GoError),
      (k.saveAssetsUnlocked blockTime recipient token sender amount chain).run s = .error err s' →
        s' = s) ∧
    (∀ (blockHeight : Int64) (recipient : String) (amount : Int) (callbackData : Bytes)
      (controller : String) (s s' : ChainState ω) (err : GoError),
      (k.createTripartyBridgeRequest blockHeight recipient amount callbackData controller).run s =
        .error err s' → s' = s) := by
  refine ⟨fun token ops s hops hL hc => ?_, fun ops s hops hL hc => ?_,
    fun _ _ _ _ _ _ _ _ _ h => saveAssetsUnlocked_eq_error h,
    fun _ _ _ _ _ _ _ _ h => createTripartyBridgeRequest_eq_error h⟩
  · have hrun := runLog_induction k.bridgeOp (k.outflowEvents token)
      (A := fun op => op.isOutflowOp = true) (I := OutflowWithin token _ _)
      (fun op hop _ _ h => h.step hL op hop) ops hops s [] ⟨rfl, rfl, hc⟩
    rw [List.nil_append, runLog_fst] at hrun
    intro s' w
    -- the stored counter refines the window
    have hw : w.value = s'.bridge.currentOutflow token := by
      rw [RateLimit.Window.value_foldl, value_start, hrun.counter]
    exact ⟨hw.symm, hrun.limit, hw ▸ hrun.le_limit⟩
  · have hrun := runLog_induction k.bridgeOp k.windowEvents
      (A := fun op => op.isWindowOp = true) (I := WindowWithin _ _)
      (fun op hop _ _ h => h.step hL op hop) ops hops s [] ⟨rfl, rfl, hc⟩
    rw [List.nil_append, runLog_fst] at hrun
    intro s' w
    have hw : w.value = s'.bridge.tripartyWindowConsumed := by
      rw [RateLimit.Window.value_foldl, value_start, hrun.counter]
    exact ⟨hw.symm, hrun.limit, hw ▸ hrun.le_limit⟩

/-- Bridge-outs of six BTC under a limit of ten, on a keeper whose EVM calls change nothing: the
first is saved, the second is refused at the limit, and after the end-blocker of a new window the
third is saved. -/
theorem rateLimits_run_bridgeOut :
    let k := Keeper.idle (AddressCodec.goEthereum fun _ => none)
    let btc := k.codec.hexToAddress btcTokenPrecompileAddress
    let s : ChainState Unit := ⟨{ BridgeStore.empty with
      sourceBTCToken := List.replicate 20 0x11, outflowLimit := fun _ => 10,
      bridgeOutChainEnabled := fun _ => true }, ()⟩
    let ops := [BridgeOp.saveAssetsUnlocked 0 [1] btc (List.replicate 20 3) 6 0,
      .saveAssetsUnlocked 0 [1] btc (List.replicate 20 3) 6 0, .endBlock 25000,
      .saveAssetsUnlocked 0 [1] btc (List.replicate 20 3) 6 0]
    (∀ op ∈ ops, op.isOutflowOp = true) ∧ 0 ≤ s.bridge.outflowLimit btc ∧
      s.bridge.currentOutflow btc ≤ s.bridge.outflowLimit btc ∧
      (runAll k.bridgeOp ops s).bridge.assetsUnlockedSequenceTip = 2 ∧
      (runAll k.bridgeOp ops s).bridge.currentOutflow btc = 6 ∧
      (runAll k.bridgeOp ops s).bridge.currentOutflow btc ≤ s.bridge.outflowLimit btc := by
  intro k btc s ops
  have hops : ∀ op ∈ ops, op.isOutflowOp = true := by decide
  have hL : 0 ≤ s.bridge.outflowLimit btc := by decide
  have hc : s.bridge.currentOutflow btc ≤ s.bridge.outflowLimit btc := by decide
  obtain ⟨heq, -, hle⟩ := (rateLimits_run k).1 btc ops s hops hL hc
  exact ⟨hops, hL, hc, by decide +kernel, by decide +kernel, heq ▸ hle⟩

end Keeper

end Mezod
