import Mezod.Bridge.Types.AssetsLocked
import Mezod.Lib.StateM

/-! # The bridge keeper's state (`x/bridge/keeper`, `x/bridge/types/keys.go`)

The bridge module keeps its state in one KV store; `BridgeStore` has a field for each key, or
key prefix, of `keys.go` that a modelled function reads or writes, holding what the getter
returns, so an absent entry is the getter's default. A prefix of keys becomes a function: the
keys under `TripartyRequestKeyPrefix` are the big-endian bytes of positive sequences, one key a
sequence, so the model indexes pending requests by the sequence itself.

The keeper also calls the bank and EVM keepers, which act on the rest of the chain. `ChainState`
pairs the bridge store with that rest, `ω`, and a keeper call is an `EStateM` over it: a call
that fails leaves the state as its writes so far made it, as the store of a Go context does. An
EVM call can reach the bridge through its precompile, so it acts on the whole `ChainState`. -/

namespace Mezod
open Go

/-- `TripartyBridgeRequest` (`bridge.pb.go`). -/
structure TripartyBridgeRequest where
  sequence : Int
  blockHeight : Int64
  recipient : String
  amount : Int
  callbackData : Bytes
  controller : String
  deriving DecidableEq, Repr

/-- `AssetsUnlockedEvent` (`bridge.pb.go`). -/
structure AssetsUnlockedEvent where
  unlockSequence : Int
  recipient : Bytes
  token : String
  sender : String
  amount : Int
  chain : UInt32
  blockTime : UInt32
  deriving DecidableEq, Repr

/-- `ERC20TokenMapping` (`bridge.pb.go`): a source-chain token and its Mezo token, as hex. -/
structure ERC20TokenMapping where
  sourceToken : String
  mezoToken : String
  deriving DecidableEq, Repr

/-- The key of a sequence-numbered record under its prefix (`GetTripartyBridgeRequestKey`,
`GetAssetsUnlockedKey`): `sequence.BigInt().Bytes()`, the bytes of its absolute value. -/
def sequenceKey (sequence : Int) : Bytes :=
  bigEndianBytes sequence.natAbs

theorem sequenceKey_inj {m n : Int} (hm : 0 < m) (hn : 0 < n) (h : sequenceKey m = sequenceKey n) :
    m = n := by
  have h' := bigEndianBytes_injective h
  omega

/-- The bridge module's store. -/
structure BridgeStore where
  /-- `AssetsLockedSequenceTipKey`. -/
  assetsLockedSequenceTip : Int
  /-- `SourceBTCTokenKey`. -/
  sourceBTCToken : Bytes
  /-- `ERC20TokenMappingKeyPrefix`: the mappings by the bytes of their source token, in key
  order. -/
  erc20TokenMappings : List (Bytes × ERC20TokenMapping)
  /-- `BTCMintedKey`. -/
  btcMinted : Int
  /-- `BTCBurntKey`. -/
  btcBurnt : Int
  /-- `AssetsUnlockedSequenceTipKey`. -/
  assetsUnlockedSequenceTip : Int
  /-- `AssetsUnlockedKeyPrefix`, by `sequenceKey`. -/
  assetsUnlocked : Bytes → Option AssetsUnlockedEvent
  /-- `OutflowLimitKeyPrefix`. -/
  outflowLimit : Bytes → Int
  /-- `CurrentOutflowKeyPrefix`. -/
  currentOutflow : Bytes → Int
  /-- `LastOutflowResetKey`. -/
  lastOutflowReset : UInt64
  /-- `BridgeOutPausedKey`. -/
  bridgeOutPaused : Bool
  /-- `BridgeInPausedKey`. -/
  bridgeInPaused : Bool
  /-- `BridgeOutChainKeyPrefix`. -/
  bridgeOutChainEnabled : UInt8 → Bool
  /-- `Params.BtcSupplyAssertionEnabled`. -/
  btcSupplyAssertionEnabled : Bool
  /-- `Params.MaxErc20TokensMappings`. -/
  maxErc20TokensMappings : UInt32
  /-- `TripartyControllerKeyPrefix`. -/
  tripartyController : Bytes → Bool
  /-- `TripartyBlockDelayKey`, 1 when unset. -/
  tripartyBlockDelay : Int64
  /-- `TripartyPerRequestLimitKey`. -/
  tripartyPerRequestLimit : Int
  /-- `TripartyWindowLimitKey`. -/
  tripartyWindowLimit : Int
  /-- `TripartyRequestKeyPrefix`, by `sequenceKey`. -/
  tripartyRequest : Bytes → Option TripartyBridgeRequest
  /-- `TripartyRequestSequenceTipKey`. -/
  tripartyRequestSequenceTip : Int
  /-- `TripartyProcessedSequenceTipKey`. -/
  tripartyProcessedSequenceTip : Int
  /-- `TripartyWindowConsumedKey`. -/
  tripartyWindowConsumed : Int
  /-- `TripartyWindowLastResetKey`. -/
  tripartyWindowLastReset : UInt64
  /-- `TripartyControllerBTCMintedKeyPrefix`. -/
  tripartyControllerBTCMinted : Bytes → Int

/-- The store of a chain before its genesis: every key is absent, so every getter returns its
default. -/
def BridgeStore.empty : BridgeStore where
  assetsLockedSequenceTip := 0
  sourceBTCToken := []
  erc20TokenMappings := []
  btcMinted := 0
  btcBurnt := 0
  assetsUnlockedSequenceTip := 0
  assetsUnlocked _ := none
  outflowLimit _ := 0
  currentOutflow _ := 0
  lastOutflowReset := 0
  bridgeOutPaused := false
  bridgeInPaused := false
  bridgeOutChainEnabled _ := false
  btcSupplyAssertionEnabled := false
  maxErc20TokensMappings := 0
  tripartyController _ := false
  tripartyBlockDelay := 1
  tripartyPerRequestLimit := 0
  tripartyWindowLimit := 0
  tripartyRequest _ := none
  tripartyRequestSequenceTip := 0
  tripartyProcessedSequenceTip := 0
  tripartyWindowConsumed := 0
  tripartyWindowLastReset := 0
  tripartyControllerBTCMinted _ := 0

/-- The bridge store and the rest of the chain. -/
structure ChainState (ω : Type) where
  bridge : BridgeStore
  world : ω

/-- A call into the EVM (`x/evm/types.ContractCall`). -/
structure ContractCall where
  fromAddress : Bytes
  toAddress : Bytes
  data : Bytes
  deriving DecidableEq, Repr

/-- The bank keeper calls of the bridge, on the rest of the chain. Every amount is of the EVM
denomination; every amount the bridge passes is positive, so `sdk.NewCoin` does not panic. -/
structure BankKeeper (ω : Type) where
  /-- `MintCoins(ctx, ModuleName, coins)`. -/
  mintCoins : Int → ω → Except String ω
  /-- `SendCoinsFromModuleToAccount(ctx, ModuleName, recipient, coins)`. -/
  sendCoinsFromModuleToAccount : Bytes → Int → ω → Except String ω
  /-- `GetSupply(ctx, DefaultEVMDenom).Amount`. -/
  getSupply : ω → Int

/-- The EVM keeper calls of the bridge. -/
structure EvmKeeper (ω : Type) where
  /-- `ExecuteContractCall`: a call that fails is reverted. -/
  executeContractCall : ContractCall → ChainState ω → Except String (ChainState ω)
  /-- `IsCustomPrecompileAddress`. -/
  isCustomPrecompileAddress : String → Bool

/-- The ABI encoders of `x/evm/types` (go-ethereum's `abi.Pack`). -/
structure ContractCalls where
  /-- `NewERC20MintCall(from, to, recipient, amount)`. -/
  newERC20MintCall : Bytes → Bytes → Bytes → Int → Except String ContractCall
  /-- `NewTripartyCallbackCall(from, to, requestID, recipient, amount, callbackData)`. -/
  newTripartyCallbackCall : Bytes → Bytes → Int → Bytes → Int → Bytes → Except String ContractCall

/-- The bridge `Keeper`: what it is built with. `blockedAddrs` is keyed by the Bech32 form of an
address, a bijection of its bytes, so the model keys it by the bytes. -/
structure Keeper (ω : Type) where
  codec : AddressCodec
  blockedAddrs : Bytes → Bool
  bankKeeper : BankKeeper ω
  evmKeeper : EvmKeeper ω
  calls : ContractCalls
  /-- `authtypes.NewModuleAddress(ModuleName)`. -/
  moduleAddress : Bytes

/-- A keeper for runs on fixed inputs: the bank and the EVM return at once and change nothing, no
address is blocked, and the ABI encoders refuse every call. -/
def Keeper.idle (codec : AddressCodec) : Keeper Unit where
  codec := codec
  blockedAddrs _ := false
  bankKeeper := ⟨fun _ w => .ok w, fun _ _ w => .ok w, fun _ => 0⟩
  evmKeeper := ⟨fun _ s => .ok s, fun _ => false⟩
  calls := ⟨fun _ _ _ _ => .error "unused", fun _ _ _ _ _ _ => .error "unused"⟩
  moduleAddress := []

/-- A keeper call. -/
abbrev KeeperM (ω α : Type) := EStateM GoError (ChainState ω) α

namespace KeeperM
variable {ω α : Type}

/-- Read the bridge store. -/
def getStore : KeeperM ω BridgeStore :=
  fun s => .ok s.bridge s

/-- Write the bridge store. -/
def modifyStore (f : BridgeStore → BridgeStore) : KeeperM ω Unit :=
  fun s => .ok () { s with bridge := f s.bridge }

/-- A call on the rest of the chain; its error is wrapped with `context`. -/
def liftWorld (context : String) (f : ω → Except String ω) : KeeperM ω Unit :=
  fun s => match f s.world with
    | .ok w => .ok () { s with world := w }
    | .error err => .error (.error (context ++ ": " ++ err)) s

/-- A call on the whole chain, such as an EVM call; its error is wrapped with `context`. -/
def liftChain (context : String) (f : ChainState ω → Except String (ChainState ω)) :
    KeeperM ω Unit :=
  fun s => match f s with
    | .ok s' => .ok () s'
    | .error err => .error (.error (context ++ ": " ++ err)) s

/-- A pure computation that may return an error, wrapped with `context`. -/
def liftExcept (context : String) (x : Except String α) : KeeperM ω α :=
  fun s => match x with
    | .ok a => .ok a s
    | .error err => .error (.error (context ++ ": " ++ err)) s

/-- A pure computation whose error is returned as it is. -/
def ofExcept (x : Except String α) : KeeperM ω α :=
  fun s => match x with
    | .ok a => .ok a s
    | .error err => .error (.error err) s

/-- `fmt.Errorf(context + ": %w", err)` on the error a call returns, its writes kept; a panic
goes through. -/
def withContext (context : String) (x : KeeperM ω α) : KeeperM ω α :=
  fun s => match x s with
    | .error (.error msg) s' => .error (.error (context ++ ": " ++ msg)) s'
    | r => r

/-- `if err := x; err != nil { panic(errorsmod.Wrapf(err, context)) }`. -/
def panicOnError (context : String) (x : KeeperM ω α) : KeeperM ω α :=
  fun s => match x s with
    | .error (.error msg) s' => .error (.panic (context ++ ": " ++ msg)) s'
    | r => r

/-- `if err := x; err != nil { log; continue }`: a returned error is dropped, with the writes
made before it; a panic is not. -/
def ignoreError (x : KeeperM ω Unit) : KeeperM ω Unit :=
  fun s => match x s with
    | .error (.error _) s' => .ok () s'
    | r => r

@[simp] theorem run_getStore (s : ChainState ω) :
    (getStore : KeeperM ω BridgeStore).run s = .ok s.bridge s := rfl

@[simp] theorem run_modifyStore (f : BridgeStore → BridgeStore) (s : ChainState ω) :
    (modifyStore f : KeeperM ω Unit).run s = .ok () { s with bridge := f s.bridge } := rfl

@[simp] theorem run_ofExcept_ok (a : α) (s : ChainState ω) :
    (ofExcept (.ok a) : KeeperM ω α).run s = .ok a s := rfl

@[simp] theorem run_ofExcept_error (err : String) (s : ChainState ω) :
    (ofExcept (.error err) : KeeperM ω α).run s = .error (.error err) s := rfl

theorem run_forM_modifyStore {β : Type} (l : List β) (f : β → BridgeStore → BridgeStore)
    (s : ChainState ω) :
    (l.forM fun a => (modifyStore (f a) : KeeperM ω Unit)).run s =
      .ok () { s with bridge := l.foldl (fun b a => f a b) s.bridge } := by
  induction l generalizing s with
  | nil => rfl
  | cons a l ih =>
    change (modifyStore (f a) >>= fun _ => l.forM fun a => (modifyStore (f a) : KeeperM ω Unit)).run s = _
    rw [EStateM.run_bind, run_modifyStore]
    exact ih _

theorem returns_modifyStore {f : BridgeStore → BridgeStore} {s : ChainState ω}
    {Q : Unit → ChainState ω → Prop} (h : Q () { s with bridge := f s.bridge }) :
    EStateM.Returns (modifyStore f) s Q :=
  ⟨(), _, rfl, h⟩

theorem returns_forM_modifyStore {β : Type} {l : List β} {f : β → BridgeStore → BridgeStore}
    {s : ChainState ω} {Q : PUnit → ChainState ω → Prop}
    (h : Q () { s with bridge := l.foldl (fun b a => f a b) s.bridge }) :
    EStateM.Returns (l.forM fun a => (modifyStore (f a) : KeeperM ω Unit)) s Q :=
  ⟨(), _, run_forM_modifyStore l f s, h⟩

theorem returns_panicOnError {context : String} {x : KeeperM ω α} {s : ChainState ω}
    {Q : α → ChainState ω → Prop} (h : EStateM.Returns x s Q) :
    EStateM.Returns (panicOnError context x) s Q := by
  obtain ⟨a, s', hrun, hq⟩ := h
  refine ⟨a, s', ?_, hq⟩
  change panicOnError context x s = _
  change x s = _ at hrun
  unfold panicOnError
  rw [hrun]

theorem run_withContext_of_ok {context : String} {x : KeeperM ω α} {s s' : ChainState ω} {a : α}
    (h : x.run s = .ok a s') : (withContext context x).run s = .ok a s' := by
  change withContext context x s = _
  change x s = _ at h
  unfold withContext
  rw [h]

/-! ## What the primitives keep -/

section preserves
variable {P : ChainState ω → Prop}

theorem preserves_getStore : EStateM.Preserves P (getStore : KeeperM ω BridgeStore) :=
  fun _ h => h

theorem preserves_modifyStore {f : BridgeStore → BridgeStore}
    (hf : ∀ s, P s → P { s with bridge := f s.bridge }) :
    EStateM.Preserves P (modifyStore f : KeeperM ω Unit) :=
  fun s h => hf s h

theorem preserves_liftWorld {context : String} {f : ω → Except String ω}
    (hf : ∀ s w, P s → P { s with world := w }) :
    EStateM.Preserves P (liftWorld context f : KeeperM ω Unit) := by
  intro s hs
  show P (liftWorld context f s).finalState
  unfold liftWorld
  split
  · exact hf s _ hs
  · exact hs

theorem preserves_liftChain {context : String} {f : ChainState ω → Except String (ChainState ω)}
    (hf : ∀ s s', f s = .ok s' → P s → P s') :
    EStateM.Preserves P (liftChain context f : KeeperM ω Unit) := by
  intro s hs
  show P (liftChain context f s).finalState
  unfold liftChain
  split
  · rename_i s' h
    exact hf s s' h hs
  · exact hs

theorem preserves_liftExcept {context : String} {x : Except String α} :
    EStateM.Preserves P (liftExcept context x : KeeperM ω α) := by
  intro s hs
  show P (liftExcept context x s).finalState
  unfold liftExcept
  split <;> exact hs

theorem preserves_ofExcept {x : Except String α} :
    EStateM.Preserves P (ofExcept x : KeeperM ω α) := by
  intro s hs
  show P (ofExcept x s).finalState
  unfold ofExcept
  split <;> exact hs

theorem preserves_panicOnError {context : String} {x : KeeperM ω α}
    (hx : EStateM.Preserves P x) : EStateM.Preserves P (panicOnError context x) := by
  intro s hs
  have hx := hx s hs
  show P (panicOnError context x s).finalState
  unfold panicOnError
  split
  · rename_i msg s' h
    change P (x s).finalState at hx
    rw [h] at hx
    exact hx
  · exact hx

theorem preserves_withContext {context : String} {x : KeeperM ω α} (hx : EStateM.Preserves P x) :
    EStateM.Preserves P (withContext context x) := by
  intro s hs
  have hx := hx s hs
  show P (withContext context x s).finalState
  unfold withContext
  split
  · rename_i msg s' h
    change P (x s).finalState at hx
    rw [h] at hx
    exact hx
  · exact hx

theorem preserves_ignoreError {x : KeeperM ω Unit} (hx : EStateM.Preserves P x) :
    EStateM.Preserves P (ignoreError x) := by
  intro s hs
  have hx := hx s hs
  show P (ignoreError x s).finalState
  unfold ignoreError
  split
  · rename_i msg s' h
    change P (x s).finalState at hx
    rw [h] at hx
    exact hx
  · exact hx

end preserves

/-! ## How the primitives fail -/

section failsWith
variable {Q : GoError → Prop}

/-- A returned error of the given context. -/
def IsErrorIn (context : String) (err : GoError) : Prop :=
  ∃ msg, err = .error (context ++ ": " ++ msg)

theorem failsWith_getStore : EStateM.FailsWith Q (getStore : KeeperM ω BridgeStore) :=
  fun _ _ _ h => by cases h

theorem failsWith_modifyStore (f : BridgeStore → BridgeStore) :
    EStateM.FailsWith Q (modifyStore f : KeeperM ω Unit) :=
  fun _ _ _ h => by cases h

theorem failsWith_liftWorld (context : String) (f : ω → Except String ω) :
    EStateM.FailsWith (IsErrorIn context) (liftWorld context f : KeeperM ω Unit) := by
  intro s e s' h
  change liftWorld context f s = _ at h
  unfold liftWorld at h
  split at h
  · cases h
  · cases h
    exact ⟨_, rfl⟩

theorem failsWith_liftChain (context : String) (f : ChainState ω → Except String (ChainState ω)) :
    EStateM.FailsWith (IsErrorIn context) (liftChain context f : KeeperM ω Unit) := by
  intro s e s' h
  change liftChain context f s = _ at h
  unfold liftChain at h
  split at h
  · cases h
  · cases h
    exact ⟨_, rfl⟩

theorem failsWith_liftExcept (context : String) (x : Except String α) :
    EStateM.FailsWith (IsErrorIn context) (liftExcept context x : KeeperM ω α) := by
  intro s e s' h
  change liftExcept context x s = _ at h
  unfold liftExcept at h
  split at h
  · cases h
  · cases h
    exact ⟨_, rfl⟩

theorem failsWith_ofExcept (x : Except String α) :
    EStateM.FailsWith GoError.IsError (ofExcept x : KeeperM ω α) := by
  intro s e s' h
  change ofExcept x s = _ at h
  unfold ofExcept at h
  split at h
  · cases h
  · cases h
    trivial

theorem failsWith_withContext {context : String} {x : KeeperM ω α}
    (hx : EStateM.FailsWith GoError.IsError x) :
    EStateM.FailsWith (IsErrorIn context) (withContext context x) := by
  intro s e s' h
  change withContext context x s = _ at h
  unfold withContext at h
  cases hrun : x s with
  | ok a s₁ => rw [hrun] at h; cases h
  | error e₁ s₁ =>
    rw [hrun] at h
    cases e₁ with
    | error msg => cases h; exact ⟨msg, rfl⟩
    | panic msg => exact (hx s _ s₁ hrun).elim

theorem failsWith_ignoreError {x : KeeperM ω Unit} (hx : EStateM.FailsWith GoError.IsError x) :
    EStateM.FailsWith Q (ignoreError x) := by
  intro s e s' h
  change ignoreError x s = _ at h
  unfold ignoreError at h
  cases hrun : x s with
  | ok a s₁ => rw [hrun] at h; cases h
  | error e₁ s₁ =>
    rw [hrun] at h
    cases e₁ with
    | error msg => cases h
    | panic msg => exact (hx s _ s₁ hrun).elim

theorem IsErrorIn.isError {context : String} {err : GoError} (h : IsErrorIn context err) :
    err.IsError := by
  obtain ⟨msg, rfl⟩ := h
  trivial

end failsWith

end KeeperM

end Mezod
