import Mezod.Bridge.Abci.VoteExtension
import Mezod.Lib.StateM

/-! # The Ethereum sidecar's AssetsLocked events (`ethereum/sidecar/server.go`, `client.go`)

The sidecar watches the bridge contract on Ethereum and keeps, in memory, the AssetsLocked events
of finalized blocks. On start it fetches the events of the last `searchedRange` blocks; on every
new finalized block it fetches those of the new blocks, appends them when they follow the cache
without a gap and form a valid list, and trims the cache to its last `cachedEventsLimit` events.
The bridge's `ExtendVote` asks it, through the client, for the events of a sequence range.

The sidecar is a program without transactions: a call that fails keeps what it wrote, which is
why its runs are `runKeep` and not reverted. Every write of the cache is its last step, so a
failed call leaves the server as it was (`sidecarCall_eq_error`), and every run keeps the cache a
valid list whose sequences go up by one (`cacheInv_runKeep`) and never moves its newest sequence
back. A request with sound bounds then gets exactly the cached events of its range, again such a
list (`queryAssetsLockedEvents_spec`), and the range `ExtendVote` asks for passes the vote
extension's check (`runKeep_sidecarCall`).

The chain enters as what it answers each call (`ChainView`), the contract's logs in any order.
Keccak, Bech32 and the hex form of addresses are the `AddressCodec`'s and `accAddressString`.
Block numbers are `Nat`s: the `Uint64()` of a finalized block does not wrap. -/

namespace Mezod
namespace Sidecar
open Go EStateM

/-- `cachedEventsLimit`. -/
def cachedEventsLimit : Nat := 500000

/-- `searchedRange`: how many blocks back the first fetch reaches. -/
def searchedRange : Nat := 220000

/-- A `MezoBridgeAssetsLocked` log as the contract binding decodes it. Its numbers are the
event's `uint256`s. -/
structure AbiAssetsLockedEvent where
  sequenceNumber : Nat
  recipient : Bytes
  token : Bytes
  amount : Nat
  sequenceNumber_lt : sequenceNumber < 2 ^ 256
  amount_lt : amount < 2 ^ 256
  deriving DecidableEq, Repr

/-- What Ethereum answers one call of the sidecar: the finalized block, and the AssetsLocked logs
of an inclusive block range as `fetchAssetsLockedABIEvents` collects them. -/
structure ChainView where
  finalizedBlock : Except String Nat
  assetsLockedABIEvents : Nat → Nat → Except String (List AbiAssetsLockedEvent)

/-- The sidecar server's state for AssetsLocked events. -/
structure Server where
  lastFinalizedBlock : Nat
  assetsLockedEvents : List AssetsLockedEvent

abbrev ServerM (α : Type) := EStateM String Server α

/-- `fmt.Errorf("<context>: [%w]", err)` around a call. -/
def wrapError {α : Type} (context : String) (x : ServerM α) : ServerM α :=
  fun s => match x s with
    | .error e s' => .error (context ++ ": [" ++ e ++ "]") s'
    | r => r

section Calls
variable (rt : Runtime) (codec : AddressCodec) (accAddressString : Bytes → String)

/-- The event a log becomes: `sdkmath.NewIntFromBigInt` of its numbers, the Bech32 text of its
recipient and the hex text of its token. -/
def toAssetsLockedEvent (e : AbiAssetsLockedEvent) : AssetsLockedEvent where
  sequence := some e.sequenceNumber
  recipient := accAddressString e.recipient
  amount := some e.amount
  token := codec.bytesToHexAddress e.token

/-- What `sort.Slice` orders the new events by; each has a sequence, read off a `uint256`. -/
def sequenceKey (e : AssetsLockedEvent) : Int := e.sequence.getD 0

/-- The gap check: the first new event follows the last cached one, or either list is empty. -/
def followsCache (cache bufferedEvents : List AssetsLockedEvent) : Bool :=
  match cache.getLast?, bufferedEvents.head? with
  | some lastEvent, some firstEvent => lastEvent.sequence.map (· + 1) == firstEvent.sequence
  | _, _ => true

/-- `fetchFinalizedAssetsLockedEvents(startBlock, endBlock)`. -/
def fetchFinalizedAssetsLockedEvents (chain : ChainView) (startBlock endBlock : Nat) :
    ServerM Unit := do
  let abiEvents ← fromExcept ((chain.assetsLockedABIEvents startBlock endBlock).mapError
    fun e => "failed to fetch AssetsLocked ABI events: [" ++ e ++ "]")
  let bufferedEvents := abiEvents.map (toAssetsLockedEvent codec accAddressString)
  if bufferedEvents.isEmpty then pure ()
  else do
    let bufferedEvents := rt.sortFunc sequenceKey bufferedEvents
    let s ← get
    (if !followsCache s.assetsLockedEvents bufferedEvents then throw "sequence gap between events"
      else pure ())
    (if !AssetsLockedEvents.isValid codec bufferedEvents then throw "invalid AssetsLocked events"
      else pure ())
    set { s with assetsLockedEvents := s.assetsLockedEvents ++ bufferedEvents }

/-- The trim that ends `processAssetsLockedEvents`: the cache keeps its last
`cachedEventsLimit` events. -/
def trimCache (s : Server) : Server :=
  if s.assetsLockedEvents.length > cachedEventsLimit then
    { s with assetsLockedEvents :=
        s.assetsLockedEvents.drop (s.assetsLockedEvents.length - cachedEventsLimit) }
  else s

/-- `processAssetsLockedEvents`, run on every tick of new blocks. -/
def processAssetsLockedEvents (chain : ChainView) : ServerM Unit := do
  let currentFinalizedBlock ← fromExcept
    (chain.finalizedBlock.mapError fun e => "cannot get finalized block: [" ++ e ++ "]")
  let s ← get
  (if currentFinalizedBlock > s.lastFinalizedBlock then do
      -- the range is `[lastFinalizedBlock + 1, currentFinalizedBlock]`
      wrapError "cannot fetch finalized AssetsLocked events"
        (fetchFinalizedAssetsLockedEvents rt codec accAddressString chain
          (s.lastFinalizedBlock + 1) currentFinalizedBlock)
      modify fun s => { s with lastFinalizedBlock := currentFinalizedBlock }
    else pure ())
  modify trimCache

/-- `observeAssetsLockedEvents` up to its ticker loop: the first fetch, `searchedRange` blocks
back from the finalized block. -/
def observeAssetsLockedEvents (chain : ChainView) : ServerM Unit := do
  let finalizedBlock ← fromExcept
    (chain.finalizedBlock.mapError fun e => "failed to get the finalized block: [" ++ e ++ "]")
  let startBlock := if searchedRange ≤ finalizedBlock then finalizedBlock - searchedRange else 0
  wrapError "failed to fetch historical events"
    (fetchFinalizedAssetsLockedEvents rt codec accAddressString chain startBlock finalizedBlock)
  modify fun s => { s with lastFinalizedBlock := finalizedBlock }

/-- A call of the sidecar on its AssetsLocked state: the first fetch, or a tick. -/
inductive SidecarCall where
  | observe (chain : ChainView)
  | process (chain : ChainView)

def SidecarCall.run : SidecarCall → ServerM Unit
  | .observe chain => observeAssetsLockedEvents rt codec accAddressString chain
  | .process chain => processAssetsLockedEvents rt codec accAddressString chain

end Calls

/-! ## The gRPC method and the client -/

/-- `AssetsLockedEventsRequest`: optional bounds of a half-open sequence range. -/
structure AssetsLockedEventsRequest where
  sequenceStart : MathInt
  sequenceEnd : MathInt
  deriving DecidableEq, Repr

/-- `!start.IsNil() && !end.IsNil() && start.GTE(end)`. -/
def startNotBelowEnd : MathInt → MathInt → Bool
  | some sequenceStart, some sequenceEnd => decide (sequenceEnd ≤ sequenceStart)
  | _, _ => false

/-- `!i.IsNil() && !i.IsPositive()`. -/
def isSetNonPositive : MathInt → Bool
  | some i => decide (i ≤ 0)
  | none => false

/-- `(start.IsNil() || event.Sequence.GTE(start)) && (end.IsNil() || event.Sequence.LT(end))`;
a nil sequence compared with a bound dereferences nil. -/
def inRange (sequenceStart sequenceEnd : MathInt) (e : AssetsLockedEvent) :
    Except GoError Bool :=
  match e.sequence with
  | some sequence => .ok (sequenceStart.all (· ≤ sequence) && sequenceEnd.all (sequence < ·))
  | none =>
    if sequenceStart.isNone && sequenceEnd.isNone then .ok true
    else .error (.panic "runtime error: invalid memory address or nil pointer dereference")

/-- The loop of `AssetsLockedEvents` over the cache, keeping the events in range. -/
def filterEvents (sequenceStart sequenceEnd : MathInt) :
    List AssetsLockedEvent → Except GoError (List AssetsLockedEvent)
  | [] => .ok []
  | e :: rest => do
    let keep ← inRange sequenceStart sequenceEnd e
    let rest ← filterEvents sequenceStart sequenceEnd rest
    pure (if keep then e :: rest else rest)

/-- `Server.AssetsLockedEvents`, the gRPC method. -/
def Server.queryAssetsLockedEvents (s : Server) (req : AssetsLockedEventsRequest) :
    Except GoError (List AssetsLockedEvent) := do
  (if startNotBelowEnd req.sequenceStart req.sequenceEnd then
      throw (.error "sequence start is not lower than sequence end")
    else pure ())
  (if isSetNonPositive req.sequenceStart || isSetNonPositive req.sequenceEnd then
      throw (.error "invalid non positive sequence range")
    else pure ())
  filterEvents req.sequenceStart req.sequenceEnd s.assetsLockedEvents

/-- `sequence.LT(bound)` for a set bound; nil compares as not below. -/
def sequenceBelow (e : AssetsLockedEvent) : MathInt → Bool
  | some bound => e.sequence.any (· < bound)
  | none => false

/-- `sequence.GTE(bound)` for a set bound; nil compares as not above. -/
def sequenceAtOrAbove (e : AssetsLockedEvent) : MathInt → Bool
  | some bound => e.sequence.any (bound ≤ ·)
  | none => false

/-- `validateAssetsLockedEvents` of the client: what the server sent is a valid list within the
bounds asked for. The comparisons run after `IsValid`, when every sequence is set. -/
def validateAssetsLockedEvents (codec : AddressCodec) (sequenceStart sequenceEnd : MathInt)
    (events : List AssetsLockedEvent) : Except String Unit :=
  match events.head?, events.getLast? with
  | some first, some last =>
    if !AssetsLockedEvents.isValid codec events then .error "server returned invalid events sequence"
    else if sequenceBelow first sequenceStart || sequenceAtOrAbove last sequenceEnd then
      .error "server returned events sequence violating requested boundaries"
    else .ok ()
  | _, _ => .ok ()

/-- `Client.GetAssetsLockedEvents` against a server. An error of the method reaches the client as
a gRPC status of code `Unknown`. A panic stops the sidecar, whose server recovers none, and the
client gets the transport's error `unavailable`. -/
def getAssetsLockedEvents (codec : AddressCodec) (unavailable : String) (s : Server)
    (sequenceStart sequenceEnd : MathInt) : Except String (List AssetsLockedEvent) := do
  let events ← match s.queryAssetsLockedEvents ⟨sequenceStart, sequenceEnd⟩ with
    | .ok events => .ok events
    | .error (.error msg) =>
      .error ("failed to get AssetsLocked events [rpc error: code = Unknown desc = " ++ msg ++ "]")
    | .error (.panic _) => .error ("failed to get AssetsLocked events [" ++ unavailable ++ "]")
  validateAssetsLockedEvents codec sequenceStart sequenceEnd events
  pure events

/-! ## How each call returns or fails -/

section Proofs
variable {rt : Runtime} {codec : AddressCodec} {accAddressString : Bytes → String}
  {chain : ChainView} {s s' : Server} {unavailable : String}

theorem run_wrapError_ok {α : Type} {context : String} {x : ServerM α} {a : α} :
    (wrapError context x).run s = .ok a s' ↔ x.run s = .ok a s' := by
  unfold wrapError EStateM.run
  dsimp only
  cases x s <;> simp

theorem run_wrapError_error {α : Type} {context : String} {x : ServerM α} {e : String}
    (h : (wrapError context x).run s = .error e s') : ∃ e₀, x.run s = .error e₀ s' := by
  unfold wrapError EStateM.run at h
  dsimp only at h
  cases hx : x s with
  | ok a s₁ => rw [hx] at h; cases h
  | error e₁ s₁ =>
    rw [hx] at h
    cases h
    exact ⟨e₁, hx⟩

theorem fetchFinalizedAssetsLockedEvents_eq_error {startBlock endBlock : Nat} {e : String}
    (h : (fetchFinalizedAssetsLockedEvents rt codec accAddressString chain startBlock
      endBlock).run s = .error e s') : s' = s := by
  unfold fetchFinalizedAssetsLockedEvents at h
  rcases fromExcept_bind_eq_error h with ⟨-, rfl⟩ | ⟨abiEvents, -, h⟩
  · rfl
  · dsimp only at h
    split at h
    · cases h
    · rw [run_get_bind] at h
      rcases bind_guard_eq_error h with ⟨-, -, rfl⟩ | ⟨-, h⟩
      · rfl
      · rcases bind_guard_eq_error h with ⟨-, -, rfl⟩ | ⟨-, h⟩
        · rfl
        · cases h

theorem fetchFinalizedAssetsLockedEvents_eq_ok {startBlock endBlock : Nat}
    (h : (fetchFinalizedAssetsLockedEvents rt codec accAddressString chain startBlock
      endBlock).run s = .ok () s') :
    ∃ abiEvents, chain.assetsLockedABIEvents startBlock endBlock = .ok abiEvents ∧
      (abiEvents = [] ∧ s' = s ∨
        let bufferedEvents :=
          rt.sortFunc sequenceKey (abiEvents.map (toAssetsLockedEvent codec accAddressString))
        AssetsLockedEvents.isValid codec bufferedEvents ∧
          followsCache s.assetsLockedEvents bufferedEvents ∧
          s' = { s with assetsLockedEvents := s.assetsLockedEvents ++ bufferedEvents }) := by
  unfold fetchFinalizedAssetsLockedEvents at h
  obtain ⟨abiEvents, habi, h⟩ := fromExcept_bind_eq_ok h
  refine ⟨abiEvents, mapError_eq_ok.1 habi, ?_⟩
  dsimp only at h
  split at h
  · rename_i hempty
    cases h
    exact .inl ⟨by simpa using hempty, rfl⟩
  · rw [run_get_bind] at h
    obtain ⟨hgap, h⟩ := bind_guard_eq_ok h
    obtain ⟨hvalid, h⟩ := bind_guard_eq_ok h
    cases h
    exact .inr ⟨by simpa using hvalid, by simpa using hgap, rfl⟩

theorem processAssetsLockedEvents_eq_error {e : String}
    (h : (processAssetsLockedEvents rt codec accAddressString chain).run s = .error e s') :
    s' = s := by
  unfold processAssetsLockedEvents at h
  rcases fromExcept_bind_eq_error h with ⟨-, rfl⟩ | ⟨block, -, h⟩
  · rfl
  · rw [run_get_bind] at h
    rcases bind_eq_error h with h₁ | ⟨_, s₁, -, h₂⟩
    · split at h₁
      · rcases bind_eq_error h₁ with hf | ⟨_, s₂, -, hm⟩
        · obtain ⟨e₀, hf⟩ := run_wrapError_error hf
          exact fetchFinalizedAssetsLockedEvents_eq_error hf
        · cases hm
      · cases h₁
    · cases h₂

/-- A tick that returns fetched the events of the new blocks, if any, and trimmed the cache. -/
theorem processAssetsLockedEvents_eq_ok
    (h : (processAssetsLockedEvents rt codec accAddressString chain).run s = .ok () s') :
    ∃ s₁, (s₁ = s ∨ ∃ block s₂, chain.finalizedBlock = .ok block ∧ s.lastFinalizedBlock < block ∧
        (fetchFinalizedAssetsLockedEvents rt codec accAddressString chain
          (s.lastFinalizedBlock + 1) block).run s = .ok () s₂ ∧
        s₁ = { s₂ with lastFinalizedBlock := block }) ∧ s' = trimCache s₁ := by
  unfold processAssetsLockedEvents at h
  obtain ⟨block, hblock, h⟩ := fromExcept_bind_eq_ok h
  rw [run_get_bind] at h
  obtain ⟨_, s₁, h₁, h₂⟩ := bind_eq_ok h
  refine ⟨s₁, ?_, by cases h₂; rfl⟩
  split at h₁
  · rename_i hnew
    obtain ⟨_, s₂, hf, hm⟩ := bind_eq_ok h₁
    exact .inr ⟨block, s₂, mapError_eq_ok.1 hblock, hnew, run_wrapError_ok.1 hf,
      by cases hm; rfl⟩
  · cases h₁
    exact .inl rfl

theorem observeAssetsLockedEvents_eq_error {e : String}
    (h : (observeAssetsLockedEvents rt codec accAddressString chain).run s = .error e s') :
    s' = s := by
  unfold observeAssetsLockedEvents at h
  rcases fromExcept_bind_eq_error h with ⟨-, rfl⟩ | ⟨block, -, h⟩
  · rfl
  · dsimp only at h
    rcases bind_eq_error h with hf | ⟨_, s₂, -, hm⟩
    · obtain ⟨e₀, hf⟩ := run_wrapError_error hf
      exact fetchFinalizedAssetsLockedEvents_eq_error hf
    · cases hm

theorem observeAssetsLockedEvents_eq_ok
    (h : (observeAssetsLockedEvents rt codec accAddressString chain).run s = .ok () s') :
    ∃ block s₂, chain.finalizedBlock = .ok block ∧
      (fetchFinalizedAssetsLockedEvents rt codec accAddressString chain
        (if searchedRange ≤ block then block - searchedRange else 0) block).run s = .ok () s₂ ∧
      s' = { s₂ with lastFinalizedBlock := block } := by
  unfold observeAssetsLockedEvents at h
  obtain ⟨block, hblock, h⟩ := fromExcept_bind_eq_ok h
  dsimp only at h
  obtain ⟨_, s₂, hf, hm⟩ := bind_eq_ok h
  exact ⟨block, s₂, mapError_eq_ok.1 hblock, run_wrapError_ok.1 hf, by cases hm; rfl⟩

/-! ## The cache stays a valid run of sequences -/

/-- What the sidecar keeps true of its cache: a valid list whose sequences go up by one. -/
def CacheInv (codec : AddressCodec) (s : Server) : Prop :=
  AssetsLockedEvents.isValid codec s.assetsLockedEvents = true

theorem followsCache_join {cache bufferedEvents : List AssetsLockedEvent}
    (h : followsCache cache bufferedEvents = true) :
    ∀ a ∈ cache.getLast?, ∀ b ∈ bufferedEvents.head?, a.sequence.map (· + 1) = b.sequence := by
  intro a ha b hb
  rw [Option.mem_def] at ha hb
  simpa [followsCache, ha, hb] using h

theorem CacheInv.fetchFinalizedAssetsLockedEvents (h : CacheInv codec s) {startBlock endBlock : Nat}
    (hrun : (Sidecar.fetchFinalizedAssetsLockedEvents rt codec accAddressString chain startBlock
      endBlock).run s = .ok () s') : CacheInv codec s' := by
  obtain ⟨abiEvents, -, ⟨-, rfl⟩ | ⟨hvalid, hfollows, rfl⟩⟩ :=
    fetchFinalizedAssetsLockedEvents_eq_ok hrun
  · exact h
  · exact AssetsLockedEvents.isValid_append h hvalid (followsCache_join hfollows)

theorem CacheInv.trimCache (h : CacheInv codec s) : CacheInv codec (Sidecar.trimCache s) := by
  by_cases hlen : s.assetsLockedEvents.length > cachedEventsLimit
  · rw [Sidecar.trimCache, if_pos hlen]
    have hd := AssetsLockedEvents.isValid_drop (s.assetsLockedEvents.length - cachedEventsLimit) h
    unfold CacheInv
    dsimp only
    exact hd
  · rw [Sidecar.trimCache, if_neg hlen]
    exact h

theorem sidecarCall_eq_error (call : SidecarCall) {e : String}
    (h : (call.run rt codec accAddressString).run s = .error e s') : s' = s := by
  cases call with
  | observe chain => exact observeAssetsLockedEvents_eq_error h
  | process chain => exact processAssetsLockedEvents_eq_error h

theorem preserves_sidecarCall_of {P : Server → Prop}
    (hfetch : ∀ chain startBlock endBlock s s', P s →
      (fetchFinalizedAssetsLockedEvents rt codec accAddressString chain startBlock endBlock).run s =
        .ok () s' → P s')
    (htrim : ∀ s, P s → P (trimCache s))
    (hblock : ∀ s block, P s → P { s with lastFinalizedBlock := block }) (call : SidecarCall) :
    Preserves P (call.run rt codec accAddressString) := by
  intro s hs
  cases hrun : (call.run rt codec accAddressString).run s with
  | error e s' =>
    rw [Result.finalState_error, sidecarCall_eq_error call hrun]
    exact hs
  | ok a s' =>
    rw [Result.finalState_ok]
    cases call with
    | observe chain =>
      obtain ⟨block, s₂, -, hf, rfl⟩ := observeAssetsLockedEvents_eq_ok hrun
      exact hblock s₂ block (hfetch _ _ _ s s₂ hs hf)
    | process chain =>
      obtain ⟨s₁, hs₁, rfl⟩ := processAssetsLockedEvents_eq_ok hrun
      apply htrim
      rcases hs₁ with rfl | ⟨block, s₂, -, -, hf, rfl⟩
      · exact hs
      · exact hblock s₂ block (hfetch _ _ _ s s₂ hs hf)

/-- Every call keeps the invariant. -/
theorem preserves_sidecarCall (call : SidecarCall) :
    Preserves (CacheInv codec) (call.run rt codec accAddressString) :=
  preserves_sidecarCall_of (fun _ _ _ _ _ h hf => h.fetchFinalizedAssetsLockedEvents hf)
    (fun _ h => h.trimCache) (fun _ _ h => h) call

/-- Every run of calls keeps the invariant, whichever of them fail. -/
theorem cacheInv_runKeep (calls : List SidecarCall) (h : CacheInv codec s) :
    CacheInv codec (runKeep (SidecarCall.run rt codec accAddressString) calls s) :=
  runKeep_induction _ (fun call (_ : True) => preserves_sidecarCall call) calls
    (fun _ _ => trivial) s h

/-! ## The cached integers fit `MaxBitLen` -/

/-- Every cached event holds `math.Int`s of at most `MaxBitLen` bits: the `uint256`s of the logs
it came from. -/
def CacheWithinMaxBitLen (s : Server) : Prop :=
  ∀ e ∈ s.assetsLockedEvents, e.withinMaxBitLen = true

theorem withinMaxBitLen_toAssetsLockedEvent (e : AbiAssetsLockedEvent) :
    (toAssetsLockedEvent codec accAddressString e).withinMaxBitLen = true := by
  simp only [toAssetsLockedEvent, AssetsLockedEvent.withinMaxBitLen, MathInt.withinMaxBitLen,
    MathInt.maxBitLen, Int.natAbs_natCast, Bool.and_eq_true]
  exact ⟨decide_eq_true e.sequenceNumber_lt, decide_eq_true e.amount_lt⟩

theorem CacheWithinMaxBitLen.fetchFinalizedAssetsLockedEvents (h : CacheWithinMaxBitLen s)
    {startBlock endBlock : Nat}
    (hrun : (Sidecar.fetchFinalizedAssetsLockedEvents rt codec accAddressString chain startBlock
      endBlock).run s = .ok () s') : CacheWithinMaxBitLen s' := by
  obtain ⟨abiEvents, -, ⟨-, rfl⟩ | ⟨-, -, rfl⟩⟩ := fetchFinalizedAssetsLockedEvents_eq_ok hrun
  · exact h
  intro e he
  rcases List.mem_append.1 he with he | he
  · exact h e he
  -- a new event is one of the fetched logs, in the order the sort put them in
  obtain ⟨a, -, rfl⟩ := List.mem_map.1 ((rt.sortFunc_perm _ _).mem_iff.1 he)
  exact withinMaxBitLen_toAssetsLockedEvent a

theorem CacheWithinMaxBitLen.trimCache (h : CacheWithinMaxBitLen s) :
    CacheWithinMaxBitLen (Sidecar.trimCache s) := by
  by_cases hlen : s.assetsLockedEvents.length > cachedEventsLimit
  · rw [Sidecar.trimCache, if_pos hlen]
    intro e he
    -- read the projection first: unfolding the drop's count would run through `Nat.sub`
    dsimp only at he
    exact h e (List.mem_of_mem_drop he)
  · rw [Sidecar.trimCache, if_neg hlen]
    exact h

theorem cacheWithinMaxBitLen_runKeep (calls : List SidecarCall) (h : CacheWithinMaxBitLen s) :
    CacheWithinMaxBitLen (runKeep (SidecarCall.run rt codec accAddressString) calls s) :=
  runKeep_induction _ (fun call (_ : True) =>
      preserves_sidecarCall_of (fun _ _ _ _ _ h hf => h.fetchFinalizedAssetsLockedEvents hf)
        (fun _ h => h.trimCache) (fun _ _ h => h) call)
    calls (fun _ _ => trivial) s h

/-! ## What a request gets -/

/-- The requested range, on a set sequence: `start ≤ n < end`, for the bounds that are set. -/
def inRequestedRange (req : AssetsLockedEventsRequest) (n : Int) : Bool :=
  req.sequenceStart.all (· ≤ n) && req.sequenceEnd.all (n < ·)

theorem inRequestedRange_convex (req : AssetsLockedEventsRequest) :
    ∀ x y z, x ≤ y → y ≤ z → inRequestedRange req x → inRequestedRange req z →
      inRequestedRange req y := by
  intro x y z hxy hyz hx hz
  simp only [inRequestedRange, Bool.and_eq_true, Option.all_eq_true, decide_eq_true_eq] at hx hz ⊢
  exact ⟨fun a ha => le_trans (hx.1 a ha) hxy, fun b hb => lt_of_le_of_lt hyz (hz.2 b hb)⟩

theorem filterEvents_eq {req : AssetsLockedEventsRequest} :
    ∀ {l : List AssetsLockedEvent}, (∀ e ∈ l, e.sequence.isSome) →
      filterEvents req.sequenceStart req.sequenceEnd l =
        .ok (l.filter fun e => e.sequence.any (inRequestedRange req))
  | [], _ => rfl
  | e :: rest, hset => by
    obtain ⟨n, hn⟩ := Option.isSome_iff_exists.1 (hset e List.mem_cons_self)
    have ih : filterEvents req.sequenceStart req.sequenceEnd rest =
        .ok (rest.filter fun e => e.sequence.any (inRequestedRange req)) :=
      filterEvents_eq fun x hx => hset x (List.mem_cons_of_mem e hx)
    simp only [filterEvents, inRange, hn, ih, List.filter_cons, Option.any_some, inRequestedRange]
    rfl

/-- Under the invariant the method never panics: it fails with its two checks of the bounds, or
returns exactly the cached events of the range, in cache order, and they are again a valid list
whose sequences go up by one. -/
theorem queryAssetsLockedEvents_spec (h : CacheInv codec s) (req : AssetsLockedEventsRequest) :
    (∀ events, s.queryAssetsLockedEvents req = .ok events ↔
      startNotBelowEnd req.sequenceStart req.sequenceEnd = false ∧
      (isSetNonPositive req.sequenceStart || isSetNonPositive req.sequenceEnd) = false ∧
      events = s.assetsLockedEvents.filter fun e => e.sequence.any (inRequestedRange req)) ∧
    (∀ e, s.queryAssetsLockedEvents req = .error e →
      e = .error "sequence start is not lower than sequence end" ∨
      e = .error "invalid non positive sequence range") ∧
    AssetsLockedEvents.isValid codec
      (s.assetsLockedEvents.filter fun e => e.sequence.any (inRequestedRange req)) := by
  have hfilter : filterEvents req.sequenceStart req.sequenceEnd s.assetsLockedEvents =
      .ok (s.assetsLockedEvents.filter fun e => e.sequence.any (inRequestedRange req)) :=
    filterEvents_eq (AssetsLockedEvents.isSome_sequence_of_isValid h)
  refine ⟨fun events => ⟨fun hq => ?_, ?_⟩, fun e he => ?_,
    AssetsLockedEvents.isValid_filter (inRequestedRange_convex req) h⟩
  · -- both checks passed, and the loop returned the filter
    obtain ⟨_, hb, hq⟩ := except_bind_eq_ok.1 hq
    obtain ⟨_, hp, hq⟩ := except_bind_eq_ok.1 hq
    rw [hfilter, Except.ok.injEq] at hq
    exact ⟨by simpa using ite_throw_eq_ok.1 hb, by simpa using ite_throw_eq_ok.1 hp, hq.symm⟩
  · rintro ⟨hb, hp, rfl⟩
    simp [Server.queryAssetsLockedEvents, hb, hp, hfilter]
  · rcases except_bind_eq_error.1 he with hb | ⟨_, -, he⟩
    · exact .inl (ite_throw_eq_error.1 hb).2.symm
    · rcases except_bind_eq_error.1 he with hp | ⟨_, -, he⟩
      · exact .inr (ite_throw_eq_error.1 hp).2.symm
      · rw [hfilter] at he
        cases he

theorem bounds_of_inRequestedRange {req : AssetsLockedEventsRequest} {e : AssetsLockedEvent}
    (h : e.sequence.any (inRequestedRange req) = true) :
    sequenceBelow e req.sequenceStart = false ∧ sequenceAtOrAbove e req.sequenceEnd = false := by
  obtain ⟨n, hn, hin⟩ := (Option.any_eq_true _ _).1 h
  simp only [inRequestedRange, Bool.and_eq_true, Option.all_eq_true, decide_eq_true_eq] at hin
  constructor
  · cases hs : req.sequenceStart with
    | none => rfl
    | some b => simpa [sequenceBelow, hn] using hin.1 b hs
  · cases he : req.sequenceEnd with
    | none => rfl
    | some b => simpa [sequenceAtOrAbove, hn] using hin.2 b he

theorem getAssetsLockedEvents_eq (h : CacheInv codec s) {sequenceStart sequenceEnd : MathInt}
    (hb : startNotBelowEnd sequenceStart sequenceEnd = false)
    (hp : (isSetNonPositive sequenceStart || isSetNonPositive sequenceEnd) = false) :
    getAssetsLockedEvents codec unavailable s sequenceStart sequenceEnd =
      .ok (s.assetsLockedEvents.filter
        fun e => e.sequence.any (inRequestedRange ⟨sequenceStart, sequenceEnd⟩)) := by
  obtain ⟨hq, -, hvalid⟩ := queryAssetsLockedEvents_spec h ⟨sequenceStart, sequenceEnd⟩
  have hok := (hq _).2 ⟨hb, hp, rfl⟩
  -- the answer is valid, and its first and last events lie within the bounds
  have hcheck : validateAssetsLockedEvents codec sequenceStart sequenceEnd
      (s.assetsLockedEvents.filter
        fun e => e.sequence.any (inRequestedRange ⟨sequenceStart, sequenceEnd⟩)) = .ok () := by
    unfold validateAssetsLockedEvents
    split
    · rename_i first last hfirst hlast
      have hmem : first ∈ _ := List.mem_of_mem_head? (Option.mem_def.2 hfirst)
      have hf := (bounds_of_inRequestedRange (List.mem_filter.1 hmem).2).1
      have hl := (bounds_of_inRequestedRange
        (List.mem_filter.1 (List.mem_of_getLast? hlast)).2).2
      simp [hvalid, hf, hl]
    · rfl
  unfold getAssetsLockedEvents
  rw [hok]
  dsimp only
  rw [except_bind_ok, hcheck]
  rfl

theorem sublist_of_getAssetsLockedEvents (h : CacheInv codec s)
    {sequenceStart sequenceEnd : MathInt} {events : List AssetsLockedEvent}
    (hget : getAssetsLockedEvents codec unavailable s sequenceStart sequenceEnd = .ok events) :
    events.Sublist s.assetsLockedEvents := by
  unfold getAssetsLockedEvents at hget
  -- only an answer of the method gets through, and it is a filter of the cache
  cases hq : s.queryAssetsLockedEvents ⟨sequenceStart, sequenceEnd⟩ with
  | ok events' =>
    rw [hq] at hget
    obtain ⟨events₀, h₀, hget⟩ := except_bind_eq_ok.1 hget
    cases h₀
    obtain ⟨-, -, hget⟩ := except_bind_eq_ok.1 hget
    cases hget
    obtain ⟨-, -, rfl⟩ := ((queryAssetsLockedEvents_spec h _).1 _).1 hq
    exact List.filter_sublist
  | error err =>
    rw [hq] at hget
    cases err <;> cases hget

/-- The range `ExtendVote` asks for, from a non-negative sequence tip, gets a list that passes
the vote extension's own check. -/
theorem getAssetsLockedEvents_extendVote (h : CacheInv codec s) {tip : Int} (htip : 0 ≤ tip) :
    ∃ events, getAssetsLockedEvents codec unavailable s (some (tip + 1))
        (some (tip + 1 + assetsLockedEventsLimit)) = .ok events ∧
      Mezod.validateAssetsLockedEvents codec events = .ok () := by
  have hb : startNotBelowEnd (some (tip + 1)) (some (tip + 1 + assetsLockedEventsLimit)) = false := by
    simp [startNotBelowEnd, assetsLockedEventsLimit]
  have hp : (isSetNonPositive (some (tip + 1)) ||
      isSetNonPositive (some (tip + 1 + assetsLockedEventsLimit))) = false := by
    have hend : ¬tip + 1 + (assetsLockedEventsLimit : Int) ≤ 0 := by
      unfold assetsLockedEventsLimit
      omega
    simp only [isSetNonPositive, Bool.or_eq_false_iff, decide_eq_false_iff_not]
    exact ⟨by omega, hend⟩
  refine ⟨_, getAssetsLockedEvents_eq h hb hp, validateAssetsLockedEvents_eq_ok.2 ⟨?_, ?_⟩⟩
  · -- consecutive sequences in a range of `assetsLockedEventsLimit` are at most that many
    have hin : ∀ e ∈ s.assetsLockedEvents.filter fun e => e.sequence.any
        (inRequestedRange ⟨some (tip + 1), some (tip + 1 + assetsLockedEventsLimit)⟩),
        ∃ n, e.sequence = some n ∧ tip + 1 ≤ n ∧ n < tip + 1 + assetsLockedEventsLimit := by
      intro e he
      obtain ⟨n, hn, hin⟩ := (Option.any_eq_true _ _).1 (List.mem_filter.1 he).2
      simp only [inRequestedRange, Bool.and_eq_true, Option.all_some, decide_eq_true_eq] at hin
      exact ⟨n, hn, hin.1, hin.2⟩
    exact AssetsLockedEvents.length_le_of_isStrictlyIncreasingSequence
      (AssetsLockedEvents.isStrictlyIncreasingSequence_of_isValid
        (queryAssetsLockedEvents_spec h _).2.2) hin
  · exact (queryAssetsLockedEvents_spec h _).2.2

/-! ## The newest cached sequence never goes back -/

/-- The sequence of the newest cached event, where the next fetch continues. -/
def tipSequence (s : Server) : Option Int :=
  s.assetsLockedEvents.getLast?.bind (·.sequence)

/-- The newest cached sequence is set and at least `n`. -/
def TipAtLeast (n : Int) (s : Server) : Prop :=
  ∃ m, tipSequence s = some m ∧ n ≤ m

theorem TipAtLeast.append {n : Int} (h : TipAtLeast n s) {bufferedEvents : List AssetsLockedEvent}
    (hinc : AssetsLockedEvents.isStrictlyIncreasingSequence bufferedEvents)
    (hfollows : followsCache s.assetsLockedEvents bufferedEvents = true) :
    TipAtLeast n { s with assetsLockedEvents := s.assetsLockedEvents ++ bufferedEvents } := by
  obtain ⟨m, hm, hnm⟩ := h
  cases bufferedEvents with
  | nil => exact ⟨m, by simpa [tipSequence] using hm, hnm⟩
  | cons first rest =>
    obtain ⟨last, hlast, hseq⟩ := Option.bind_eq_some_iff.1 hm
    -- the first new event carries `m + 1`, and the last one at least that
    have hfirst : first.sequence = some (m + 1) := by
      have := followsCache_join hfollows last hlast first rfl
      rw [hseq] at this
      exact this.symm
    obtain ⟨t, ht, hmt⟩ := AssetsLockedEvents.le_sequence_getLast_of_isStrictlyIncreasingSequence hinc hfirst
    refine ⟨t, ?_, by omega⟩
    simp only [tipSequence, List.getLast?_append_of_ne_nil _ (List.cons_ne_nil first rest),
      List.getLast?_eq_some_getLast (List.cons_ne_nil first rest), Option.bind_some]
    exact ht

theorem TipAtLeast.fetchFinalizedAssetsLockedEvents {n : Int} (h : TipAtLeast n s)
    {startBlock endBlock : Nat}
    (hrun : (Sidecar.fetchFinalizedAssetsLockedEvents rt codec accAddressString chain startBlock
      endBlock).run s = .ok () s') : TipAtLeast n s' := by
  obtain ⟨abiEvents, -, ⟨-, rfl⟩ | ⟨hvalid, hfollows, rfl⟩⟩ :=
    fetchFinalizedAssetsLockedEvents_eq_ok hrun
  · exact h
  · exact h.append (AssetsLockedEvents.isStrictlyIncreasingSequence_of_isValid hvalid) hfollows

theorem TipAtLeast.trimCache {n : Int} (h : TipAtLeast n s) : TipAtLeast n (Sidecar.trimCache s) := by
  by_cases hlen : s.assetsLockedEvents.length > cachedEventsLimit
  · rw [Sidecar.trimCache, if_pos hlen]
    -- the trim drops fewer events than the cache holds, so its last one stays
    have hkeep : ¬s.assetsLockedEvents.length ≤ s.assetsLockedEvents.length - cachedEventsLimit := by
      unfold cachedEventsLimit at hlen ⊢
      omega
    obtain ⟨m, hm, hnm⟩ := h
    refine ⟨m, ?_, hnm⟩
    simp only [tipSequence, List.getLast?_drop, if_neg hkeep]
    exact hm
  · rw [Sidecar.trimCache, if_neg hlen]
    exact h

theorem preserves_tipAtLeast (n : Int) (call : SidecarCall) :
    Preserves (TipAtLeast n) (call.run rt codec accAddressString) :=
  preserves_sidecarCall_of (fun _ _ _ _ _ h hf => h.fetchFinalizedAssetsLockedEvents hf)
    (fun _ h => h.trimCache) (fun _ _ h => h) call

/-- Along every run of calls from a server whose cache is valid, whichever calls fail: the cache
stays valid, its newest sequence never goes back, and the range `ExtendVote` asks for, from any
non-negative tip, gets through the client a list that passes the vote extension's check. -/
theorem runKeep_sidecarCall (calls : List SidecarCall) (h : CacheInv codec s) :
    CacheInv codec (runKeep (SidecarCall.run rt codec accAddressString) calls s) ∧
    (∀ n, TipAtLeast n s →
      TipAtLeast n (runKeep (SidecarCall.run rt codec accAddressString) calls s)) ∧
    ∀ tip : Int, 0 ≤ tip → ∃ events,
      getAssetsLockedEvents codec unavailable (runKeep (SidecarCall.run rt codec accAddressString) calls s)
        (some (tip + 1)) (some (tip + 1 + assetsLockedEventsLimit)) = .ok events ∧
      Mezod.validateAssetsLockedEvents codec events = .ok () := by
  have hinv : CacheInv codec (runKeep (SidecarCall.run rt codec accAddressString) calls s) :=
    cacheInv_runKeep calls h
  refine ⟨hinv, fun n hn => ?_, fun tip htip => getAssetsLockedEvents_extendVote hinv htip⟩
  exact runKeep_induction _ (fun call (_ : True) => preserves_tipAtLeast n call) calls
    (fun _ _ => trivial) s hn

theorem runKeep_sidecarCall_observe :
    CacheInv ⟨fun _ => none, fun _ => false, fun _ => [], fun _ => ""⟩ ⟨0, []⟩ ∧
    CacheInv ⟨fun _ => none, fun _ => false, fun _ => [], fun _ => ""⟩
      (runKeep (SidecarCall.run Runtime.insertionOrder
        ⟨fun _ => none, fun _ => false, fun _ => [], fun _ => ""⟩ fun _ => "")
        [.observe ⟨.ok 5, fun _ _ => .ok []⟩] ⟨0, []⟩) :=
  ⟨rfl, (@runKeep_sidecarCall Runtime.insertionOrder
    ⟨fun _ => none, fun _ => false, fun _ => [], fun _ => ""⟩ (fun _ => "") ⟨0, []⟩ ""
    [.observe ⟨.ok 5, fun _ _ => .ok []⟩] rfl).1⟩

end Proofs

end Sidecar
end Mezod
