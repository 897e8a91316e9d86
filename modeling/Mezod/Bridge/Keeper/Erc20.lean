import Mezod.Bridge.Keeper.Genesis
import Mezod.Bridge.Keeper.AssetsUnlocked

/-! # ERC20 token mappings (`x/bridge/keeper/erc20.go`, `x/bridge/types/genesis.go`)

A mapping pairs a token of the source chain with the ERC20 that stands for it on Mezo. The store
keys a mapping by the bytes of its source token, so a bridge-in finds it by one lookup; a
bridge-out scans the mappings in key order for the first whose Mezo token, past its first two
characters, decodes to the token burnt. `CreateERC20TokenMapping` refuses a source token that is
already mapped, but nothing refuses a Mezo token that is: two mappings can share one, and a
bridge-out of it then names the source token of the first. `GenesisState.Validate` checks that
each mapping's tokens are strict hex addresses, with or without `0x`, and `InitGenesis` stores
them as written; a Mezo token written without `0x` decodes past its first two characters to
nineteen bytes, so the scan never finds it.

`MappingStore` is what every operation keeps: the mappings strictly in key order, each under the
bytes of its own source token, each Mezo token a strict address. On it no two mappings share a
source token, the scan never panics and finds the first mapping whose Mezo token decodes to the
bytes asked for, and a bridge-out of a Mezo token that one mapping alone maps to, written with
its `0x`, names that mapping's source token (`erc20Mappings_run`). The hex helpers are
go-ethereum's, outside this repository: the proofs use only the laws of `AddressCodec.Lawful`. -/

namespace Mezod
open Go KeeperM EStateM

/-- The checks of `GenesisState.Validate` on its `i`-th ERC20 mapping. -/
def validateErc20TokenMapping (codec : AddressCodec) (i : Nat) (mapping : ERC20TokenMapping) :
    Except String Unit := do
  (if mapping.sourceToken.isEmpty then
    throw ("source token of ERC20 mapping " ++ toString i ++ " cannot be empty") else pure ())
  (if !codec.isHexAddress mapping.sourceToken then
    throw ("source token of ERC20 mapping " ++ toString i ++
      " must be a valid hex-encoded EVM address") else pure ())
  (if mapping.mezoToken.isEmpty then
    throw ("mezo token of ERC20 mapping " ++ toString i ++ " cannot be empty") else pure ())
  (if !codec.isHexAddress mapping.mezoToken then
    throw ("mezo token of ERC20 mapping " ++ toString i ++
      " must be a valid hex-encoded EVM address") else pure ())

/-- The loop of `GenesisState.Validate` over `Erc20TokensMappings`. -/
def validateErc20TokensMappings (codec : AddressCodec) (mappings : List ERC20TokenMapping) :
    Except String Unit :=
  TripartyGenesis.forEachIndexed mappings (validateErc20TokenMapping codec)

/-- The mappings as every operation leaves them: strictly in key order, each under the bytes of
its source token, each Mezo token a strict hex address. -/
structure MappingStore (codec : AddressCodec) (b : BridgeStore) : Prop where
  sorted : OrderedMap.Sorted b.erc20TokenMappings
  keyed : ∀ p ∈ b.erc20TokenMappings, p.1 = codec.hexToAddress p.2.sourceToken
  mezoHex : ∀ p ∈ b.erc20TokenMappings, codec.isHexAddress p.2.mezoToken = true

namespace MappingStore
variable {codec : AddressCodec} {b : BridgeStore}

theorem congr {b' : BridgeStore} (h : MappingStore codec b)
    (he : b'.erc20TokenMappings = b.erc20TokenMappings) : MappingStore codec b' := by
  obtain ⟨h₁, h₂, h₃⟩ := h
  rw [← he] at h₁ h₂ h₃
  exact ⟨h₁, h₂, h₃⟩

theorem of_nil (h : b.erc20TokenMappings = []) : MappingStore codec b :=
  ⟨by rw [h]; exact List.Pairwise.nil, by simp [h], by simp [h]⟩

theorem insert (h : MappingStore codec b) {mapping : ERC20TokenMapping}
    (hm : codec.isHexAddress mapping.mezoToken = true) :
    MappingStore codec { b with
      erc20TokenMappings := OrderedMap.insert (codec.hexToAddress mapping.sourceToken) mapping
        b.erc20TokenMappings } where
  sorted := OrderedMap.sorted_insert h.sorted
  keyed p hp := by
    rcases (OrderedMap.mem_insert h.sorted).1 hp with rfl | ⟨hp, -⟩
    · rfl
    · exact h.keyed p hp
  mezoHex p hp := by
    rcases (OrderedMap.mem_insert h.sorted).1 hp with rfl | ⟨hp, -⟩
    · exact hm
    · exact h.mezoHex p hp

theorem erase (h : MappingStore codec b) (key : Bytes) :
    MappingStore codec
      { b with erc20TokenMappings := OrderedMap.erase key b.erc20TokenMappings } where
  sorted := OrderedMap.sorted_erase h.sorted
  keyed p hp := h.keyed p (OrderedMap.mem_erase.1 hp).1
  mezoHex p hp := h.mezoHex p (OrderedMap.mem_erase.1 hp).1

theorem source_injective (h : MappingStore codec b) {p q : Bytes × ERC20TokenMapping}
    (hp : p ∈ b.erc20TokenMappings) (hq : q ∈ b.erc20TokenMappings)
    (he : codec.hexToAddress p.2.sourceToken = codec.hexToAddress q.2.sourceToken) : p = q :=
  OrderedMap.eq_of_key_eq h.sorted hp hq (by rw [h.keyed p hp, h.keyed q hq, he])

end MappingStore

/-! ## The scan of the bridge-outs -/

section scan
variable {codec : AddressCodec} (hcodec : codec.Lawful)
include hcodec

theorem findMezoToken_eq (mezoToken : Bytes) :
    ∀ {vs : List ERC20TokenMapping}, (∀ v ∈ vs, codec.isHexAddress v.mezoToken = true) →
      Keeper.findMezoToken mezoToken vs =
        .ok (vs.find? fun v => (Hex.decode (v.mezoToken.toList.drop 2)).1 = mezoToken)
  | [], _ => rfl
  | v :: rest, hv => by
    obtain ⟨hlen, hdec⟩ := hcodec.decode_drop_of_isHexAddress _ (hv v List.mem_cons_self)
    have ih := findMezoToken_eq mezoToken fun w hw => hv w (List.mem_cons_of_mem _ hw)
    have hlt : ¬ v.mezoToken.length < 2 := by
      rw [← String.length_toList]
      omega
    rw [Keeper.findMezoToken, if_neg hlt, List.find?_cons]
    -- the token decodes, so the scan compares it and goes on
    rcases hd : Hex.decode (v.mezoToken.toList.drop 2) with ⟨token, err⟩
    rw [hd] at hdec
    subst hdec
    dsimp only
    by_cases ht : token = mezoToken
    · simp [ht]
    · simp [ht, ih]

theorem findMezoToken_cons_of_eq {mezoToken : Bytes} {v : ERC20TokenMapping}
    (rest : List ERC20TokenMapping) (hv : codec.isHexAddress v.mezoToken = true)
    (hp : Eth.has0xPrefix v.mezoToken.toList = true) (he : codec.hexToAddress v.mezoToken = mezoToken) :
    Keeper.findMezoToken mezoToken (v :: rest) = .ok (some v) := by
  obtain ⟨hlen, hdec⟩ := hcodec.decode_drop_of_isHexAddress _ hv
  have htok := hcodec.decode_drop_of_has0xPrefix _ hv hp
  have hlt : ¬ v.mezoToken.length < 2 := by
    rw [← String.length_toList]
    omega
  rw [Keeper.findMezoToken, if_neg hlt]
  rcases hd : Hex.decode (v.mezoToken.toList.drop 2) with ⟨token, err⟩
  rw [hd] at hdec htok
  subst hdec
  simp only at htok
  simp [htok, he]

theorem has0xPrefix_of_decode_drop {mezoToken : String} {token : Bytes}
    (hv : codec.isHexAddress mezoToken = true)
    (hdec : (Hex.decode (mezoToken.toList.drop 2)).1 = token) (hlen : token.length = 20) :
    Eth.has0xPrefix mezoToken.toList = true := by
  cases hp : Eth.has0xPrefix mezoToken.toList
  · have h19 := hcodec.length_decode_drop_of_not_has0xPrefix _ hv hp
    rw [hdec, hlen] at h19
    cases h19
  · rfl

end scan

theorem find?_eq_of_unique {α : Type} {l : List α} {p : α → Bool} {a : α} (ha : a ∈ l)
    (hpa : p a = true) (huniq : ∀ b ∈ l, p b = true → b = a) : l.find? p = some a := by
  cases hf : l.find? p with
  | none => exact absurd hpa (List.find?_eq_none.1 hf a ha)
  | some b => rw [huniq b (List.mem_of_find?_eq_some hf) (List.find?_some hf)]

namespace Keeper
variable {ω : Type} (k : Keeper ω)

/-! ## The keeper's mapping calls -/

/-- `NewERC20TokenMapping`. -/
def newERC20TokenMapping (sourceToken mezoToken : Bytes) : ERC20TokenMapping :=
  ⟨k.codec.bytesToHexAddress sourceToken, k.codec.bytesToHexAddress mezoToken⟩

/-- `setERC20TokenMapping`: the mapping under `SourceTokenBytes()`. -/
def setERC20TokenMapping (mapping : ERC20TokenMapping) : KeeperM ω Unit :=
  modifyStore fun b => { b with
    erc20TokenMappings := OrderedMap.insert (k.codec.hexToAddress mapping.sourceToken) mapping
      b.erc20TokenMappings }

/-- `setERC20TokensMappings`, as `InitGenesis` calls it. -/
def setERC20TokensMappings (mappings : List ERC20TokenMapping) : KeeperM ω Unit :=
  mappings.forM k.setERC20TokenMapping

/-- `CreateERC20TokenMapping`; `isContract` is the EVM keeper's `IsContract`. -/
def createERC20TokenMapping (isContract : ChainState ω → Bytes → Bool)
    (sourceToken mezoToken : Bytes) : KeeperM ω Unit := do
  let mapping := k.newERC20TokenMapping sourceToken mezoToken
  (if !k.codec.isHexAddress mapping.sourceToken then
    throw (.error "invalid source token: invalid hex-encoded EVM address") else pure ())
  (if TripartyGenesis.isZeroHexAddress k.codec mapping.sourceToken then
    throw (.error "zero source token: zero EVM address") else pure ())
  (if !k.codec.isHexAddress mapping.mezoToken then
    throw (.error "invalid mezo token: invalid hex-encoded EVM address") else pure ())
  (if TripartyGenesis.isZeroHexAddress k.codec mapping.mezoToken then
    throw (.error "zero mezo token: zero EVM address") else pure ())
  let s ← get
  (if (s.bridge.erc20TokenMappings.lookup (k.codec.hexToAddress mapping.sourceToken)).isSome then
    throw (.error "given ERC20 mapping already exists") else pure ())
  (if s.bridge.erc20TokenMappings.length.toUInt32 ≥ s.bridge.maxErc20TokensMappings then
    throw (.error "the maximum number of ERC20 mappings has been reached") else pure ())
  (if !isContract s (k.codec.hexToAddress mapping.mezoToken) then
    throw (.error "mezo token: token address is not a contract") else pure ())
  k.setERC20TokenMapping mapping

/-- `DeleteERC20TokenMapping`. -/
def deleteERC20TokenMapping (sourceToken : Bytes) : KeeperM ω Unit := do
  let store ← getStore
  (if (store.erc20TokenMappings.lookup sourceToken).isNone then
    throw (.error "given ERC20 mapping does not exist") else pure ())
  modifyStore fun b =>
    { b with erc20TokenMappings := OrderedMap.erase sourceToken b.erc20TokenMappings }

section calls
variable {k} {isContract : ChainState ω → Bytes → Bool} {s s' : ChainState ω}

theorem createERC20TokenMapping_eq_ok {sourceToken mezoToken : Bytes} {u : Unit}
    (h : (k.createERC20TokenMapping isContract sourceToken mezoToken).run s = .ok u s') :
    k.codec.isHexAddress (k.newERC20TokenMapping sourceToken mezoToken).mezoToken = true ∧
      s' = { s with bridge := { s.bridge with
        erc20TokenMappings := OrderedMap.insert
          (k.codec.hexToAddress (k.newERC20TokenMapping sourceToken mezoToken).sourceToken)
          (k.newERC20TokenMapping sourceToken mezoToken) s.bridge.erc20TokenMappings } } := by
  rw [createERC20TokenMapping] at h
  -- the four checks of the addresses and the three of the store each write nothing
  obtain ⟨-, h⟩ := bind_guard_eq_ok h
  obtain ⟨-, h⟩ := bind_guard_eq_ok h
  obtain ⟨hmezo, h⟩ := bind_guard_eq_ok h
  obtain ⟨-, h⟩ := bind_guard_eq_ok h
  rw [run_get_bind] at h
  obtain ⟨-, h⟩ := bind_guard_eq_ok h
  obtain ⟨-, h⟩ := bind_guard_eq_ok h
  obtain ⟨-, h⟩ := bind_guard_eq_ok h
  cases h
  exact ⟨by simpa using hmezo, rfl⟩

theorem deleteERC20TokenMapping_eq_ok {sourceToken : Bytes} {u : Unit}
    (h : (deleteERC20TokenMapping sourceToken : KeeperM ω Unit).run s = .ok u s') :
    s' = { s with bridge := { s.bridge with
      erc20TokenMappings := OrderedMap.erase sourceToken s.bridge.erc20TokenMappings } } := by
  rw [deleteERC20TokenMapping] at h
  obtain ⟨_, s₁, h₁, h⟩ := bind_eq_ok h
  cases h₁
  obtain ⟨-, h⟩ := bind_guard_eq_ok h
  cases h
  rfl

theorem run_createERC20TokenMapping {sourceToken mezoToken : Bytes}
    (h₁ : k.codec.isHexAddress (k.newERC20TokenMapping sourceToken mezoToken).sourceToken = true)
    (h₂ : TripartyGenesis.isZeroHexAddress k.codec
      (k.newERC20TokenMapping sourceToken mezoToken).sourceToken = false)
    (h₃ : k.codec.isHexAddress (k.newERC20TokenMapping sourceToken mezoToken).mezoToken = true)
    (h₄ : TripartyGenesis.isZeroHexAddress k.codec
      (k.newERC20TokenMapping sourceToken mezoToken).mezoToken = false)
    (h₅ : (s.bridge.erc20TokenMappings.lookup
      (k.codec.hexToAddress (k.newERC20TokenMapping sourceToken mezoToken).sourceToken)).isSome =
        false)
    (h₆ : ¬ s.bridge.erc20TokenMappings.length.toUInt32 ≥ s.bridge.maxErc20TokensMappings)
    (h₇ : isContract s (k.codec.hexToAddress (k.newERC20TokenMapping sourceToken mezoToken).mezoToken)
      = true) :
    (k.createERC20TokenMapping isContract sourceToken mezoToken).run s = .ok () { s with
      bridge := { s.bridge with
        erc20TokenMappings := OrderedMap.insert
          (k.codec.hexToAddress (k.newERC20TokenMapping sourceToken mezoToken).sourceToken)
          (k.newERC20TokenMapping sourceToken mezoToken) s.bridge.erc20TokenMappings } } := by
  rw [createERC20TokenMapping]
  simp only [h₁, h₂, h₃, h₄, Bool.not_true, Bool.false_eq_true, if_false, pure_bind,
    run_get_bind]
  simp only [h₅, h₆, h₇, Bool.not_true, Bool.false_eq_true, if_false, pure_bind]
  rfl

theorem unlockOp_mappings {op : UnlockOp} {u : Unit} (h : (k.unlockOp op).run s = .ok u s') :
    s'.bridge.erc20TokenMappings = s.bridge.erc20TokenMappings := by
  cases op with
  | saveAssetsUnlocked blockTime recipient token sender amount chain =>
    obtain ⟨_, s₁, h₁, h⟩ := bind_eq_ok h
    obtain ⟨-, -, rfl⟩ := saveAssetsUnlocked_eq_ok h₁
    cases h
    rfl
  | endBlock blockHeight =>
    obtain rfl := endBlock_eq_ok h
    rfl
  | setBridgeOutPaused isPaused => cases h; rfl
  | enableBridgeOutChain chain => cases h; rfl
  | disableBridgeOutChain chain => cases h; rfl
  | setOutflowLimit token limit => cases h; rfl

end calls

/-! ## The genesis -/

theorem isHexAddress_of_validate {codec : AddressCodec} {i : Nat} {mapping : ERC20TokenMapping}
    (h : validateErc20TokenMapping codec i mapping = .ok ()) :
    codec.isHexAddress mapping.mezoToken = true := by
  obtain ⟨_, -, h⟩ := except_bind_eq_ok.1 h
  obtain ⟨_, -, h⟩ := except_bind_eq_ok.1 h
  obtain ⟨_, -, h⟩ := except_bind_eq_ok.1 h
  simpa using (ite_throw_eq_ok.1 h)

theorem run_setERC20TokensMappings (mappings : List ERC20TokenMapping) (s : ChainState ω) :
    (k.setERC20TokensMappings mappings).run s = .ok () { s with
      bridge := mappings.foldl (fun b m => { b with
        erc20TokenMappings := OrderedMap.insert (k.codec.hexToAddress m.sourceToken) m
          b.erc20TokenMappings }) s.bridge } :=
  run_forM_modifyStore mappings _ s

theorem mappingStore_foldl {b : BridgeStore} :
    ∀ {mappings : List ERC20TokenMapping}, MappingStore k.codec b →
      (∀ m ∈ mappings, k.codec.isHexAddress m.mezoToken = true) →
      MappingStore k.codec (mappings.foldl (fun b m => { b with
        erc20TokenMappings := OrderedMap.insert (k.codec.hexToAddress m.sourceToken) m
          b.erc20TokenMappings }) b)
  | [], h, _ => h
  | m :: rest, h, hm => by
    rw [List.foldl_cons]
    exact mappingStore_foldl (h.insert (hm m List.mem_cons_self))
      fun m' hm' => hm m' (List.mem_cons_of_mem _ hm')

/-! ## Runs -/

/-- The operations of a run over the mappings: creations and deletions, and the bridge-outs and
settings of `UnlockOp`, which read the mappings and write none. -/
inductive MappingOp where
  | createERC20TokenMapping (sourceToken mezoToken : Bytes)
  | deleteERC20TokenMapping (sourceToken : Bytes)
  | unlock (op : UnlockOp)

/-- An operation, as the keeper runs it. -/
def mappingOp (isContract : ChainState ω → Bytes → Bool) : MappingOp → KeeperM ω Unit
  | .createERC20TokenMapping sourceToken mezoToken =>
    k.createERC20TokenMapping isContract sourceToken mezoToken
  | .deleteERC20TokenMapping sourceToken => deleteERC20TokenMapping sourceToken
  | .unlock op => k.unlockOp op

/-- The step lemma of the run: a creation writes a mapping it checked, a deletion drops one, and
the other operations write none. -/
theorem MappingStore.step {k : Keeper ω} {isContract : ChainState ω → Bytes → Bool}
    (op : MappingOp) {s : ChainState ω} (h : MappingStore k.codec s.bridge) :
    MappingStore k.codec (commit (k.mappingOp isContract op) s).bridge := by
  refine commit_cases (P := fun s' : ChainState ω => MappingStore k.codec s'.bridge)
    (fun _ s' hrun => ?_) h
  cases op with
  | createERC20TokenMapping sourceToken mezoToken =>
    obtain ⟨hm, rfl⟩ := createERC20TokenMapping_eq_ok hrun
    exact h.insert hm
  | deleteERC20TokenMapping sourceToken =>
    obtain rfl := deleteERC20TokenMapping_eq_ok hrun
    exact h.erase sourceToken
  | unlock op => exact h.congr (unlockOp_mappings hrun)

/-! ## What the store of mappings gives -/

section lookups
variable {k : Keeper ω} (hcodec : k.codec.Lawful)
include hcodec

/-- The scan of a bridge-out never panics on the store of mappings: it finds the first mapping
whose Mezo token decodes, past its first two characters, to the bytes asked for. -/
theorem getERC20TokenMappingFromMezoToken_eq {b : BridgeStore} (h : MappingStore k.codec b)
    (mezoToken : Bytes) :
    getERC20TokenMappingFromMezoToken b mezoToken =
      .ok ((b.erc20TokenMappings.map Prod.snd).find? fun m =>
        (Hex.decode (m.mezoToken.toList.drop 2)).1 = mezoToken) := by
  refine findMezoToken_eq hcodec mezoToken fun v hv => ?_
  obtain ⟨p, hp, rfl⟩ := List.mem_map.1 hv
  exact h.mezoHex p hp

theorem has0xPrefix_of_getERC20TokenMappingFromMezoToken {b : BridgeStore}
    (h : MappingStore k.codec b) {mezoToken : Bytes} (hlen : mezoToken.length = 20)
    {m : ERC20TokenMapping} (hfind : getERC20TokenMappingFromMezoToken b mezoToken = .ok (some m)) :
    Eth.has0xPrefix m.mezoToken.toList = true := by
  rw [getERC20TokenMappingFromMezoToken_eq hcodec h] at hfind
  have hfound := Except.ok.inj hfind
  obtain ⟨p, hp, rfl⟩ := List.mem_map.1 (List.mem_of_find?_eq_some hfound)
  have hdec : (Hex.decode (p.2.mezoToken.toList.drop 2)).1 = mezoToken := by
    simpa using List.find?_some hfound
  exact has0xPrefix_of_decode_drop hcodec (h.mezoHex p hp) hdec hlen

theorem getERC20TokenMappingFromMezoToken_of_unique {b : BridgeStore} (h : MappingStore k.codec b)
    {key : Bytes} {m : ERC20TokenMapping} (hm : (key, m) ∈ b.erc20TokenMappings)
    (h0x : Eth.has0xPrefix m.mezoToken.toList = true)
    (huniq : ∀ p ∈ b.erc20TokenMappings,
      k.codec.hexToAddress p.2.mezoToken = k.codec.hexToAddress m.mezoToken → p.2 = m) :
    getERC20TokenMappingFromMezoToken b (k.codec.hexToAddress m.mezoToken) = .ok (some m) := by
  rw [getERC20TokenMappingFromMezoToken_eq hcodec h]
  refine congrArg _ (find?_eq_of_unique (List.mem_map.2 ⟨_, hm, rfl⟩) ?_ fun v hv hdec => ?_)
  · simp [hcodec.decode_drop_of_has0xPrefix _ (h.mezoHex _ hm) h0x]
  · obtain ⟨p, hp, rfl⟩ := List.mem_map.1 hv
    rw [decide_eq_true_eq] at hdec
    -- a mapping that decodes to the address is written with its `0x`, so it decodes to its own
    have hpre := has0xPrefix_of_decode_drop hcodec (h.mezoHex p hp) hdec
      (hcodec.length_hexToAddress _)
    rw [hcodec.decode_drop_of_has0xPrefix _ (h.mezoHex p hp) hpre] at hdec
    exact huniq p hp hdec

theorem saveAssetsUnlocked_token_of_unique {s s' : ChainState ω} (h : MappingStore k.codec s.bridge)
    {token : String} {m : ERC20TokenMapping}
    (hlookup : s.bridge.erc20TokenMappings.lookup (k.codec.hexToAddress token) = some m)
    (h0x : Eth.has0xPrefix m.mezoToken.toList = true)
    (huniq : ∀ p ∈ s.bridge.erc20TokenMappings,
      k.codec.hexToAddress p.2.mezoToken = k.codec.hexToAddress m.mezoToken → p.2 = m)
    (hbtc : k.codec.hexToAddress btcTokenPrecompileAddress ≠ k.codec.hexToAddress m.mezoToken)
    {blockTime : Int64} {recipient sender : Bytes} {amount : Int} {chain : UInt8}
    {event : AssetsUnlockedEvent}
    (hsave : (k.saveAssetsUnlocked blockTime recipient (k.codec.hexToAddress m.mezoToken) sender
      amount chain).run s = .ok event s') :
    k.codec.hexToAddress event.token = k.codec.hexToAddress token := by
  -- the bridge-in's mapping is stored under the bytes of its source token
  have hm : (k.codec.hexToAddress token, m) ∈ s.bridge.erc20TokenMappings := by
    obtain ⟨l₁, l₂, hl, -⟩ := List.lookup_eq_some_iff.1 hlookup
    rw [hl]
    exact List.mem_append_right _ List.mem_cons_self
  have hkey : k.codec.hexToAddress token = k.codec.hexToAddress m.sourceToken := h.keyed _ hm
  have htarget := saveAssetsUnlocked_targetToken hsave
  rw [targetToken, if_neg hbtc,
    getERC20TokenMappingFromMezoToken_of_unique hcodec h hm h0x huniq] at htarget
  -- the event names the source token as `Hex()` writes it, which reads back as its bytes
  have htok : event.token = k.codec.bytesToHexAddress (k.codec.hexToAddress m.sourceToken) :=
    (Except.ok.inj htarget).symm
  rw [htok, hcodec.hexToAddress_bytesToHexAddress _ (hcodec.length_hexToAddress _), hkey]

theorem run_createERC20TokenMapping_of_length {isContract : ChainState ω → Bytes → Bool}
    {s : ChainState ω} {X M : Bytes} (hX : X.length = 20) (hM : M.length = 20)
    (hzX : X ≠ zeroAddress) (hzM : M ≠ zeroAddress)
    (hnew : s.bridge.erc20TokenMappings.lookup X = none)
    (hroom : s.bridge.erc20TokenMappings.length.toUInt32 < s.bridge.maxErc20TokensMappings)
    (hcontract : isContract s M = true) :
    (k.createERC20TokenMapping isContract X M).run s = .ok () { s with bridge := { s.bridge with
      erc20TokenMappings := OrderedMap.insert X (k.newERC20TokenMapping X M)
        s.bridge.erc20TokenMappings } } := by
  have hzero : ∀ Y : Bytes, Y.length = 20 → Y ≠ zeroAddress →
      TripartyGenesis.isZeroHexAddress k.codec (k.codec.bytesToHexAddress Y) = false := by
    intro Y hY hne
    simpa [TripartyGenesis.isZeroHexAddress, hcodec.hexToAddress_bytesToHexAddress Y hY] using hne
  have hkey : k.codec.hexToAddress (k.newERC20TokenMapping X M).sourceToken = X :=
    hcodec.hexToAddress_bytesToHexAddress X hX
  have h : (k.createERC20TokenMapping isContract X M).run s = _ :=
    run_createERC20TokenMapping (hcodec.isHexAddress_bytesToHexAddress X) (hzero X hX hzX)
      (hcodec.isHexAddress_bytesToHexAddress M) (hzero M hM hzM)
      (by rw [hkey, hnew]; rfl) (UInt32.not_le.2 hroom)
      (by rw [newERC20TokenMapping, hcodec.hexToAddress_bytesToHexAddress M hM]; exact hcontract)
  rwa [hkey] at h

/-- Two creations of one Mezo token, from two source tokens, both go through on a store with room
and no mapping: neither checks that the Mezo token is not mapped already. -/
theorem runAll_createERC20TokenMapping_shared {isContract : ChainState ω → Bytes → Bool}
    {s : ChainState ω} {X₁ X₂ M : Bytes} (h₁ : X₁.length = 20) (h₂ : X₂.length = 20)
    (hM : M.length = 20) (hz₁ : X₁ ≠ zeroAddress) (hz₂ : X₂ ≠ zeroAddress)
    (hzM : M ≠ zeroAddress) (hlt : X₁ < X₂) (hnone : s.bridge.erc20TokenMappings = [])
    (hroom : 1 < s.bridge.maxErc20TokensMappings) (hcontract : ∀ s, isContract s M = true) :
    runAll (k.mappingOp isContract)
      [.createERC20TokenMapping X₁ M, .createERC20TokenMapping X₂ M] s =
      { s with bridge := { s.bridge with erc20TokenMappings :=
        [(X₁, k.newERC20TokenMapping X₁ M), (X₂, k.newERC20TokenMapping X₂ M)] } } := by
  have hs₁ := commit_of_ok (run_createERC20TokenMapping_of_length hcodec h₁ hM hz₁ hzM
    (by rw [hnone]; rfl) (by rw [hnone]; exact UInt32.lt_trans (by decide) hroom) (hcontract s))
  rw [hnone, OrderedMap.insert] at hs₁
  -- the second source token is above the first, so it is written after it
  have hne : (X₂ == X₁) = false := beq_eq_false_iff_ne.2 (ne_of_gt hlt)
  have hs₂ := commit_of_ok (run_createERC20TokenMapping_of_length hcodec
    (s := { s with bridge := { s.bridge with
      erc20TokenMappings := [(X₁, k.newERC20TokenMapping X₁ M)] } })
    h₂ hM hz₂ hzM (by simp [List.lookup, hne]) hroom (hcontract _))
  simp only [runAll, mappingOp, hs₁, hs₂]
  simp [OrderedMap.insert, not_lt_of_gt hlt, ne_of_gt hlt]

/-- A bridge-out of a Mezo token names the source token of the first mapping of it in key order,
also when a later mapping maps that Mezo token too. -/
theorem saveAssetsUnlocked_first {s : ChainState ω} {X M : Bytes} {blockTime : Int64}
    {recipient sender : Bytes} {amount : Int} {chain : UInt8} {rest : List (Bytes × ERC20TokenMapping)}
    (hX : X.length = 20) (hM : M.length = 20)
    (hmap : s.bridge.erc20TokenMappings = (X, k.newERC20TokenMapping X M) :: rest)
    (hbtc : k.codec.hexToAddress btcTokenPrecompileAddress ≠ M)
    (hpaused : s.bridge.bridgeOutPaused = false)
    (hchain : s.bridge.bridgeOutChainEnabled chain = true)
    (hlimit : checkOutflowLimit s.bridge M amount = .ok ()) :
    ∃ event s', (k.saveAssetsUnlocked blockTime recipient M sender amount chain).run s =
      .ok event s' ∧ k.codec.hexToAddress event.token = X := by
  have htarget : k.targetToken s.bridge M = .ok (k.codec.bytesToHexAddress X) := by
    have hfind : getERC20TokenMappingFromMezoToken s.bridge M =
        .ok (some (k.newERC20TokenMapping X M)) := by
      rw [getERC20TokenMappingFromMezoToken, hmap, List.map_cons]
      exact findMezoToken_cons_of_eq hcodec _ (hcodec.isHexAddress_bytesToHexAddress M)
        (hcodec.has0xPrefix_bytesToHexAddress M) (hcodec.hexToAddress_bytesToHexAddress M hM)
    rw [targetToken, if_neg hbtc, hfind]
    dsimp only
    rw [newERC20TokenMapping, hcodec.hexToAddress_bytesToHexAddress X hX]
  obtain ⟨event, s', hrun, htok⟩ := run_saveAssetsUnlocked hpaused hchain hlimit htarget
    (hcodec.isEmpty_bytesToHexAddress X)
  exact ⟨event, s', hrun, by rw [htok, hcodec.hexToAddress_bytesToHexAddress X hX]⟩

end lookups

/-- The ERC20 mappings over any run, from a validated genesis. Loading validated mappings into a
store with none gives the store of mappings, and every run of creations, deletions and
bridge-outs keeps it. On it no two mappings share a source token, as twenty bytes; the scan of a
bridge-out never panics, finds the first mapping in key order whose Mezo token decodes, past its
first two characters, to the token burnt, and for a token of twenty bytes finds only mappings
whose Mezo token is written with its `0x`. When the bridge-in of a token finds mapping `m`, and
`m`, its Mezo token written with its `0x`, is the one mapping of that Mezo token, a bridge-out of
the Mezo token (if it is not the BTC token) names the token the bridge-in came in as. -/
theorem erc20Mappings_run (hcodec : k.codec.Lawful)
    (isContract : ChainState ω → Bytes → Bool) :
    (∀ (mappings : List ERC20TokenMapping) (s s' : ChainState ω),
      validateErc20TokensMappings k.codec mappings = .ok () → s.bridge.erc20TokenMappings = [] →
      (k.setERC20TokensMappings mappings).run s = .ok () s' → MappingStore k.codec s'.bridge) ∧
    (∀ (ops : List MappingOp) (s : ChainState ω), MappingStore k.codec s.bridge →
      MappingStore k.codec (runAll (k.mappingOp isContract) ops s).bridge) ∧
    (∀ b : BridgeStore, MappingStore k.codec b →
      (∀ p ∈ b.erc20TokenMappings, ∀ q ∈ b.erc20TokenMappings,
        k.codec.hexToAddress p.2.sourceToken = k.codec.hexToAddress q.2.sourceToken → p = q) ∧
      (∀ mezoToken : Bytes, getERC20TokenMappingFromMezoToken b mezoToken =
        .ok ((b.erc20TokenMappings.map Prod.snd).find? fun m =>
          (Hex.decode (m.mezoToken.toList.drop 2)).1 = mezoToken)) ∧
      ∀ (mezoToken : Bytes) (m : ERC20TokenMapping), mezoToken.length = 20 →
        getERC20TokenMappingFromMezoToken b mezoToken = .ok (some m) →
        Eth.has0xPrefix m.mezoToken.toList = true) ∧
    (∀ (s s' : ChainState ω) (token : String) (m : ERC20TokenMapping) (blockTime : Int64)
      (recipient sender : Bytes) (amount : Int) (chain : UInt8) (event : AssetsUnlockedEvent),
      MappingStore k.codec s.bridge →
      s.bridge.erc20TokenMappings.lookup (k.codec.hexToAddress token) = some m →
      Eth.has0xPrefix m.mezoToken.toList = true →
      (∀ p ∈ s.bridge.erc20TokenMappings,
        k.codec.hexToAddress p.2.mezoToken = k.codec.hexToAddress m.mezoToken → p.2 = m) →
      k.codec.hexToAddress btcTokenPrecompileAddress ≠ k.codec.hexToAddress m.mezoToken →
      (k.saveAssetsUnlocked blockTime recipient (k.codec.hexToAddress m.mezoToken) sender amount
        chain).run s = .ok event s' →
      k.codec.hexToAddress event.token = k.codec.hexToAddress token) := by
  refine ⟨fun mappings s s' hv hnone hrun => ?_, fun ops s h => ?_,
    fun b h => ⟨?_, getERC20TokenMappingFromMezoToken_eq hcodec h, fun _ _ hlen hfind =>
      has0xPrefix_of_getERC20TokenMappingFromMezoToken hcodec h hlen hfind⟩,
    fun s s' token m _ _ _ _ _ _ h hlookup h0x huniq hbtc hsave =>
      saveAssetsUnlocked_token_of_unique hcodec h hlookup h0x huniq hbtc hsave⟩
  · -- the genesis is loaded into a store with no mapping
    rw [run_setERC20TokensMappings] at hrun
    cases hrun
    refine k.mappingStore_foldl (MappingStore.of_nil hnone) fun m hm => ?_
    obtain ⟨i, hi⟩ := TripartyGenesis.forEachIndexed_eq_ok hv m hm
    exact isHexAddress_of_validate hi
  · exact runAll_induction (k.mappingOp isContract) (A := fun _ => True)
      (I := fun s : ChainState ω => MappingStore k.codec s.bridge)
      (fun op _ _ h => MappingStore.step op h) ops
      (fun _ _ => trivial) s h
  · exact fun p hp q hq he => h.source_injective hp hq he

/-- Go-ethereum's codec meets the laws. Two creations of one Mezo
token from two source tokens both go through and keep the store of mappings, which then maps that
Mezo token twice; the scan finds the first, and a bridge-out of the Mezo token names the first
source token, also for what came in as the second. -/
theorem erc20Mappings_run_sharedMezoToken :
    let k := Keeper.idle (AddressCodec.goEthereum fun _ => none)
    let X₁ : Bytes := List.replicate 19 0 ++ [1]
    let X₂ : Bytes := List.replicate 19 0 ++ [2]
    let M : Bytes := List.replicate 19 0 ++ [3]
    let s : ChainState Unit := ⟨{ BridgeStore.empty with
      maxErc20TokensMappings := 10, bridgeOutChainEnabled := fun _ => true,
      outflowLimit := fun _ => 1 }, ()⟩
    let s' := runAll (k.mappingOp fun _ _ => true)
      [.createERC20TokenMapping X₁ M, .createERC20TokenMapping X₂ M] s
    k.codec.Lawful ∧ MappingStore k.codec s.bridge ∧ MappingStore k.codec s'.bridge ∧
      (∃ m₁ m₂, s'.bridge.erc20TokenMappings = [(X₁, m₁), (X₂, m₂)] ∧
        k.codec.hexToAddress m₁.mezoToken = M ∧ k.codec.hexToAddress m₂.mezoToken = M ∧
        getERC20TokenMappingFromMezoToken s'.bridge M = .ok (some m₁)) ∧
      ∃ event s'', (k.saveAssetsUnlocked 0 [] M [] 1 0).run s' = .ok event s'' ∧
        k.codec.hexToAddress event.token = X₁ := by
  intro k X₁ X₂ M s s'
  have hcodec : k.codec.Lawful := (AddressCodec.isGoEthereum_goEthereum _).lawful
  have hempty : MappingStore k.codec s.bridge := MappingStore.of_nil rfl
  have hrun := erc20Mappings_run k hcodec fun _ _ => true
  have hstore : MappingStore k.codec s'.bridge := hrun.2.1 _ s hempty
  -- both creations pass their checks, and the Mezo token is then mapped twice
  have hs' : s' = { s with bridge := { s.bridge with erc20TokenMappings :=
      [(X₁, k.newERC20TokenMapping X₁ M), (X₂, k.newERC20TokenMapping X₂ M)] } } :=
    runAll_createERC20TokenMapping_shared hcodec rfl rfl rfl (by decide) (by decide) (by decide)
      (by decide) rfl (by decide) fun _ => rfl
  have hM : ∀ X, k.codec.hexToAddress (k.newERC20TokenMapping X M).mezoToken = M :=
    fun _ => hcodec.hexToAddress_bytesToHexAddress M rfl
  -- the scan is `find?`, which stops at the first of the two
  have hfind : getERC20TokenMappingFromMezoToken s'.bridge M =
      .ok (some (k.newERC20TokenMapping X₁ M)) := by
    rw [(hrun.2.2.1 _ hstore).2.1 M, hs']
    decide +kernel
  refine ⟨hcodec, hempty, hstore, ⟨k.newERC20TokenMapping X₁ M, k.newERC20TokenMapping X₂ M,
    by rw [hs'], hM X₁, hM X₂, hfind⟩, ?_⟩
  rw [hs']
  exact saveAssetsUnlocked_first hcodec rfl rfl rfl (by decide +kernel) rfl rfl (by decide)

/-- `GenesisState.Validate` accepts a Mezo token written without its `0x`, and `InitGenesis` loads
it. The bridge-in of the source token finds the mapping, and mints the Mezo token's twenty bytes;
the scan of a bridge-out of them decodes the token past its first two characters, reaches nineteen
bytes, and finds no mapping, so the bridge-out is refused as of an unknown token. -/
theorem erc20Mappings_genesisWithout0x :
    let k := Keeper.idle (AddressCodec.goEthereum fun _ => none)
    let m : ERC20TokenMapping := ⟨"0x1111111111111111111111111111111111111111",
      "2222222222222222222222222222222222222222"⟩
    let s : ChainState Unit := ⟨{ BridgeStore.empty with
      bridgeOutChainEnabled := fun _ => true, outflowLimit := fun _ => 1 }, ()⟩
    let s' := commit (k.setERC20TokensMappings [m]) s
    validateErc20TokensMappings k.codec [m] = .ok () ∧
      ((k.setERC20TokensMappings [m]).run s).toExcept = .ok () ∧
      s'.bridge.erc20TokenMappings.lookup (k.codec.hexToAddress m.sourceToken) = some m ∧
      k.codec.hexToAddress m.mezoToken = List.replicate 20 0x22 ∧
      getERC20TokenMappingFromMezoToken s'.bridge (k.codec.hexToAddress m.mezoToken) = .ok none ∧
      ((k.saveAssetsUnlocked 0 [] (k.codec.hexToAddress m.mezoToken) [] 1 0).run s').toExcept =
        .error (.error "unknown token 2222222222222222222222222222222222222222") := by
  intro k m s s'
  exact ⟨by decide +kernel, by decide +kernel, by decide +kernel, by decide +kernel,
    by decide +kernel, by decide +kernel⟩

end Keeper

end Mezod
