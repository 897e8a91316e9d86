import Mezod.Erc20.Approve
import Mezod.Lib.StateM

/-! # EIP-2612 permits of the ERC20 precompiles (`precompile/erc20/permit.go`)

`permit` sets an allowance as `approve` does, for an owner who signed it off chain: the signature
must recover to the owner over the EIP-712 digest of the permit with the owner's nonce, and the
nonce then goes up by one, so that a signature is spent once. The nonce is kept in the EVM
store's extension of the owner's account, under the precompile's key, as the big-endian bytes of
the number; it is read back as a 32-byte hash, so it wraps at `2 ^ 256`.

The deadline is a `uint256`, but `Run` compares `deadline.Int64()` with the block's Unix time.
`Int64` reads the low 64 bits in two's complement, so a deadline past `MaxInt64`, such as the
usual `2 ^ 256 - 1` for no deadline, reads negative and the permit is refused as expired
(`permit_maxDeadline`).

The go-ethereum calls, Keccak-256, the recovery of a public key from a signature, the address of
a key and the check of the signature's values, are parameters (`Crypto`), and so is the x/authz
keeper (`AuthzKeeper`). The ABI decoder gives each input its declared type, so the type assertions
of `Run` pass and a `uint256` is never nil or negative. A call that fails leaves the store as it
was, since the EVM reverts the precompile's writes; events are not modelled. -/

namespace Mezod
namespace Erc20
open Go Eth EStateM

/-- The go-ethereum calls of the precompile: Keccak-256, which has 32 bytes; `SigToPub`, which
gives the bytes of a public key; `PubkeyToAddress`; `ValidateSignatureValues`; and the text of
`Address.Hex`. -/
structure Crypto where
  keccak256 : Bytes → Bytes
  length_keccak256 : ∀ b, (keccak256 b).length = 32
  sigToPub : Bytes → Bytes → Except String Bytes
  pubkeyToAddress : Bytes → Bytes
  validateSignatureValues : UInt8 → Nat → Nat → Bool → Bool
  addressHex : Bytes → String

/-- The order of the secp256k1 curve. -/
def secp256k1N : Nat := 0xfffffffffffffffffffffffffffffffebaaedce6af48a03bbfd25e8cd0364141

def secp256k1halfN : Nat := secp256k1N / 2

/-- Go-ethereum's `ValidateSignatureValues`. -/
def validateSignatureValues (v : UInt8) (r s : Nat) (homestead : Bool) : Bool :=
  if r < 1 ∨ s < 1 then false
  -- the upper half of the `s` values is refused against ECDSA malleability
  else if homestead && decide (secp256k1halfN < s) then false
  else decide (r < secp256k1N ∧ s < secp256k1N ∧ (v = 0 ∨ v = 1))

/-- Go-ethereum's calls around a Keccak-256 and a key recovery: `PubkeyToAddress` is the last
twenty bytes of the hash of the key without its prefix byte. -/
def Crypto.goEthereum (keccak256 : Bytes → Bytes) (h : ∀ b, (keccak256 b).length = 32)
    (sigToPub : Bytes → Bytes → Except String Bytes) : Crypto where
  keccak256 := keccak256
  length_keccak256 := h
  sigToPub := sigToPub
  pubkeyToAddress pub := bytesToAddress ((keccak256 (pub.drop 1)).drop 12)
  validateSignatureValues := Erc20.validateSignatureValues
  addressHex := bytesToHexAddress keccak256

/-- What a `PermitMethod` is built with. -/
structure PermitMethod where
  denom : String
  domainSeparator : Bytes
  nonceKey : Bytes

/-- The inputs of `permit`: `owner`, `spender`, `value`, `deadline`, `v`, `r` and `s`. -/
structure PermitInputs where
  owner : Bytes
  spender : Bytes
  amount : Nat
  deadline : Nat
  v : UInt8
  r : Bytes
  s : Bytes

/-- The store as the precompile reads and writes it: the state of x/authz, and the extension of
the EVM store, by address and key. -/
structure PermitStore (γ : Type) where
  authz : γ
  stateExtension : Bytes → Bytes → Bytes

/-! ## The nonce -/

section store
variable {γ : Type}

/-- `GetStateExtension`: 32 bytes, zero under a key never written. -/
def getStateExtension (s : PermitStore γ) (addr key : Bytes) : Bytes :=
  let value := s.stateExtension addr key
  if value.isEmpty then List.replicate 32 0 else bytesToHash value

/-- `SetStateExtension`; an empty value deletes the key, which then reads as never written. -/
def setStateExtension (addr key value : Bytes) (s : PermitStore γ) : PermitStore γ :=
  { s with stateExtension := fun a k => if a = addr ∧ k = key then value else s.stateExtension a k }

/-- `common.HexToHash(hex.EncodeToString(key))`, where the nonce is kept. -/
def nonceSlot (key : Bytes) : Bytes :=
  hexToHash (hexEncodeToString key)

/-- The bytes of a key as `%s` prints them. -/
def keyText (key : Bytes) : String :=
  String.ofList (key.map fun b => Char.ofNat b.toNat)

/-- `getNonce`. -/
def getNonce (c : Crypto) (key : Bytes) (s : PermitStore γ) (address : Bytes) :
    Except GoError (Bytes × Bytes) :=
  if 32 < key.length then .error (.error ("key " ++ keyText key ++ " is longer than 32 bytes"))
  else
    let nonce := getStateExtension s address (nonceSlot key)
    -- a `common.Hash` is never empty
    if nonce.isEmpty then
      .error (.error ("failed to get nonce for address " ++ c.addressHex address))
    else .ok (nonce, key)

/-- `NoncesMethod.Run`. -/
def nonces (c : Crypto) (m : PermitMethod) (s : PermitStore γ) (account : Bytes) :
    Except GoError Nat := do
  let (nonce, _) ← getNonce c m.nonceKey s account
  pure (bigSetBytes nonce)

/-- `incrementNonce`. -/
def incrementNonce (c : Crypto) (m : PermitMethod) (address : Bytes) (s : PermitStore γ) :
    Except GoError (PermitStore γ) := do
  let (nonce, key) ← withContext "failed to get nonce" (getNonce c m.nonceKey s address)
  let nonceBigInt := bigSetBytes nonce + 1
  pure (setStateExtension address (nonceSlot key) (bigEndianBytes nonceBigInt) s)

end store

/-! ## The digest and `Run` -/

def permitTypehash : String :=
  "Permit(address owner,address spender,uint256 value,uint256 nonce,uint256 deadline)"

/-- `encodedPermitParams` of `buildDigest`: the typehash and the five words of the permit. -/
def encodedPermitParams (c : Crypto) (owner spender : Bytes) (amount nonce deadline : Nat) :
    Bytes :=
  -- Keccak-256 has 32 bytes: the copy into a `[32]byte` and the packing of a `bytes32` keep it
  c.keccak256 (permitTypehash.toList.map fun ch => ch.toNat.toUInt8) ++ leftPadBytes owner 32 ++
    leftPadBytes spender 32 ++ u256Bytes amount ++ u256Bytes nonce ++ u256Bytes deadline

/-- `buildDigest`, which cannot fail on these types. -/
def buildDigest (c : Crypto) (owner spender : Bytes) (amount nonce deadline : Nat)
    (domainSeparator : Bytes) : Bytes :=
  c.keccak256 ([0x19, 0x01] ++ domainSeparator ++
    c.keccak256 (encodedPermitParams c owner spender amount nonce deadline))

/-- `PermitMethod.Run` at a block time, on the store; it returns the store it leaves. -/
def permit {γ : Type} (ak : AuthzKeeper γ) (c : Crypto) (m : PermitMethod) (blockTime : Int)
    (inputs : PermitInputs) (st : PermitStore γ) : Except GoError (Bool × PermitStore γ) := do
  -- Unix time in seconds
  let timestamp := blockTime / 10 ^ 9
  (if isZeroAddress inputs.owner then throw (.error "owner address cannot be empty") else pure ())
  (if isZeroAddress inputs.spender then throw (.error "spender address cannot be empty")
    else pure ())
  (if (bigInt64 inputs.deadline).toInt < timestamp then throw (.error "permit expired")
    else pure ())
  (if inputs.v ≠ 27 ∧ inputs.v ≠ 28 then
    throw (.error ("invalid v value: " ++ toString inputs.v.toNat)) else pure ())
  -- `ValidateSignatureValues` expects `v` as 0 or 1
  let v := inputs.v - 27
  let r := bigSetBytes inputs.r
  let s := bigSetBytes inputs.s
  (if !c.validateSignatureValues v r s true then throw (.error "invalid signature values")
    else pure ())
  let (nonce, _) ← getNonce c m.nonceKey st inputs.owner
  let digest := buildDigest c inputs.owner inputs.spender inputs.amount (bigSetBytes nonce)
    inputs.deadline m.domainSeparator
  let signature := inputs.r ++ (inputs.s ++ [v])
  let recoveredPubKey ← (c.sigToPub digest signature).mapError fun err =>
    .error ("failed to recover public key from signature: " ++ err)
  (if c.pubkeyToAddress recoveredPubKey ≠ inputs.owner then
    throw (.error "verification failed over the signed message") else pure ())
  let (authorization, expiration) :=
    ak.getAuthorization blockTime inputs.spender inputs.owner st.authz
  let authz ← handleAuthorization ak m.denom authorization inputs.spender inputs.amount blockTime
    inputs.owner expiration st.authz
  let st ← withContext "failed to set nonce" (incrementNonce c m inputs.owner { st with authz })
  pure (true, st)

/-! ## The nonce, as a number -/

/-- The nonce that `getNonce` reads for an address. -/
def nonceOf {γ : Type} (m : PermitMethod) (s : PermitStore γ) (address : Bytes) : Nat :=
  bigSetBytes (getStateExtension s address (nonceSlot m.nonceKey))

section nonce
variable {γ : Type} {c : Crypto} {m : PermitMethod} {s : PermitStore γ}

@[simp] theorem length_getStateExtension (s : PermitStore γ) (addr key : Bytes) :
    (getStateExtension s addr key).length = 32 := by
  unfold getStateExtension
  dsimp only
  split <;> simp

theorem nonceOf_lt (m : PermitMethod) (s : PermitStore γ) (address : Bytes) :
    nonceOf m s address < 2 ^ 256 := by
  have h := bigSetBytes_lt (getStateExtension s address (nonceSlot m.nonceKey))
  have hpow : (256 : Nat) ^ 32 = 2 ^ 256 := by norm_num
  rw [length_getStateExtension, hpow] at h
  exact h

theorem getNonce_eq_ok {key : Bytes} (h : key.length ≤ 32) (address : Bytes) :
    getNonce c key s address = .ok (getStateExtension s address (nonceSlot key), key) := by
  have hne : (getStateExtension s address (nonceSlot key)).isEmpty = false := by
    rw [List.isEmpty_eq_false_iff_exists_mem]
    exact List.exists_mem_of_length_pos (by simp)
  simp [getNonce, Nat.not_lt.2 h, hne]

theorem length_le_of_getNonce_eq_ok {key address : Bytes} {p : Bytes × Bytes}
    (h : getNonce c key s address = .ok p) : key.length ≤ 32 := by
  unfold getNonce at h
  split at h
  · cases h
  · omega

theorem getNonce_eq_error {key address : Bytes} {e : GoError}
    (h : getNonce c key s address = .error e) :
    32 < key.length ∧ e = .error ("key " ++ keyText key ++ " is longer than 32 bytes") := by
  by_cases hkey : key.length ≤ 32
  · rw [getNonce_eq_ok hkey] at h
    cases h
  · unfold getNonce at h
    rw [if_pos (by omega)] at h
    cases h
    exact ⟨by omega, rfl⟩

theorem nonces_eq_ok (h : m.nonceKey.length ≤ 32) (account : Bytes) :
    nonces c m s account = .ok (nonceOf m s account) := by
  simp only [nonces, getNonce_eq_ok h, except_bind_ok]
  rfl

@[simp] theorem nonceOf_authz (g : γ) (address : Bytes) :
    nonceOf m { s with authz := g } address = nonceOf m s address := rfl

theorem nonceOf_setStateExtension {owner : Bytes} (n : Nat) (address : Bytes) :
    nonceOf m (setStateExtension owner (nonceSlot m.nonceKey) (bigEndianBytes (n + 1)) s) address =
      if address = owner then (n + 1) % 2 ^ 256 else nonceOf m s address := by
  unfold nonceOf getStateExtension setStateExtension
  by_cases ha : address = owner
  · have hne : (bigEndianBytes (n + 1)).isEmpty = false :=
      List.isEmpty_eq_false_iff.2 (bigEndianBytes_ne_nil (Nat.succ_ne_zero n))
    simp [ha, hne, bigSetBytes_bytesToHash, bigSetBytes_bigEndianBytes]
  · simp [ha]

theorem incrementNonce_eq_ok (h : m.nonceKey.length ≤ 32) (address : Bytes) :
    incrementNonce c m address s = .ok (setStateExtension address (nonceSlot m.nonceKey)
      (bigEndianBytes (nonceOf m s address + 1)) s) := by
  simp only [incrementNonce, getNonce_eq_ok h, withContext_ok, except_bind_ok]
  rfl

end nonce

/-! ## What a permit did -/

/-- The signature of the inputs recovers to the owner over the digest of the permit with the
nonce `nonce`. -/
def Signs (c : Crypto) (m : PermitMethod) (i : PermitInputs) (nonce : Nat) : Prop :=
  ∃ pub, c.sigToPub (buildDigest c i.owner i.spender i.amount nonce i.deadline m.domainSeparator)
    (i.r ++ (i.s ++ [i.v - 27])) = .ok pub ∧ c.pubkeyToAddress pub = i.owner

section permit
variable {γ : Type} {ak : AuthzKeeper γ} {c : Crypto} {m : PermitMethod} {blockTime : Int}
  {i : PermitInputs} {s : PermitStore γ}

/-- A permit that returned passed every check, with a signature over the owner's nonce, set the
allowance by `handleAuthorization`, and wrote the next nonce. -/
theorem permit_eq_ok {out : Bool} {s' : PermitStore γ}
    (h : permit ak c m blockTime i s = .ok (out, s')) :
    isZeroAddress i.owner = false ∧ isZeroAddress i.spender = false ∧
      ¬ (bigInt64 i.deadline).toInt < blockTime / 10 ^ 9 ∧ m.nonceKey.length ≤ 32 ∧
      Signs c m i (nonceOf m s i.owner) ∧
      ∃ authz, handleAuthorization ak m.denom (ak.getAuthorization blockTime i.spender i.owner
          s.authz).1 i.spender i.amount blockTime i.owner
          (ak.getAuthorization blockTime i.spender i.owner s.authz).2 s.authz = .ok authz ∧
        s' = setStateExtension i.owner (nonceSlot m.nonceKey)
          (bigEndianBytes (nonceOf m s i.owner + 1)) { s with authz := authz } := by
  unfold permit at h
  -- the guards in front of the nonce passed
  obtain ⟨⟨⟩, howner, h⟩ := except_bind_eq_ok.1 h
  obtain ⟨⟨⟩, hspender, h⟩ := except_bind_eq_ok.1 h
  obtain ⟨⟨⟩, hdeadline, h⟩ := except_bind_eq_ok.1 h
  obtain ⟨⟨⟩, -, h⟩ := except_bind_eq_ok.1 h
  obtain ⟨⟨⟩, -, h⟩ := except_bind_eq_ok.1 h
  obtain ⟨⟨nonce, key⟩, hnonce, h⟩ := except_bind_eq_ok.1 h
  have hkey := length_le_of_getNonce_eq_ok hnonce
  rw [getNonce_eq_ok hkey] at hnonce
  cases hnonce
  obtain ⟨pub, hpub, h⟩ := except_bind_eq_ok.1 h
  obtain ⟨⟨⟩, hverify, h⟩ := except_bind_eq_ok.1 h
  obtain ⟨authz, hauthz, h⟩ := except_bind_eq_ok.1 h
  obtain ⟨st, hinc, h⟩ := except_bind_eq_ok.1 h
  have hsig : c.sigToPub (buildDigest c i.owner i.spender i.amount (nonceOf m s i.owner) i.deadline
      m.domainSeparator) (i.r ++ (i.s ++ [i.v - 27])) = .ok pub := mapError_eq_ok.1 hpub
  rw [withContext_eq_ok, incrementNonce_eq_ok hkey, nonceOf_authz] at hinc
  cases hinc
  cases h
  refine ⟨by simpa using howner, by simpa using hspender, by simpa using hdeadline, hkey,
    ⟨pub, hsig, not_not.1 (ite_throw_eq_ok.1 hverify)⟩, authz, hauthz, rfl⟩

theorem AuthzError.ne_expired {e : GoError} (h : AuthzError e) : e ≠ .error "permit expired" := by
  intro he
  cases h with
  | convert err =>
    have := GoError.error.inj he
    rw [String.append_assoc] at this
    exact append_ne_of_length_lt _ (by decide) this
  | validate err =>
    have := GoError.error.inj he
    rw [String.append_assoc] at this
    exact append_ne_of_length_lt _ (by decide) this
  | spendLimit | duplicate | expiration | notFound | unknownType => exact absurd he (by decide)
  | negative => cases he

theorem permit_eq_expired_iff (hak : ak.Lawful) :
    permit ak c m blockTime i s = .error (.error "permit expired") ↔
      isZeroAddress i.owner = false ∧ isZeroAddress i.spender = false ∧
        (i.deadline : Int).bmod (2 ^ 64) < blockTime / 10 ^ 9 := by
  rw [← toInt_bigInt64]
  constructor
  · intro h
    unfold permit at h
    rcases except_bind_eq_error.1 h with hg | ⟨⟨⟩, howner, h⟩
    · exact absurd (ite_throw_eq_error.1 hg).2 (by decide)
    rcases except_bind_eq_error.1 h with hg | ⟨⟨⟩, hspender, h⟩
    · exact absurd (ite_throw_eq_error.1 hg).2 (by decide)
    rcases except_bind_eq_error.1 h with hg | ⟨⟨⟩, -, h⟩
    · exact ⟨by simpa using howner, by simpa using hspender, (ite_throw_eq_error.1 hg).1⟩
    -- past the deadline, every failure has a text of its own
    exfalso
    rcases except_bind_eq_error.1 h with hg | ⟨⟨⟩, -, h⟩
    · exact append_ne_of_length_lt _ (by decide) (GoError.error.inj (ite_throw_eq_error.1 hg).2)
    rcases except_bind_eq_error.1 h with hg | ⟨⟨⟩, -, h⟩
    · exact absurd (ite_throw_eq_error.1 hg).2 (by decide)
    rcases except_bind_eq_error.1 h with hg | ⟨⟨nonce, key⟩, hnonce, h⟩
    · obtain ⟨-, he⟩ := getNonce_eq_error hg
      exact append_ne_of_length_lt' _ (by decide) (GoError.error.inj he).symm
    have hkey := length_le_of_getNonce_eq_ok hnonce
    rw [getNonce_eq_ok hkey] at hnonce
    cases hnonce
    rcases except_bind_eq_error.1 h with hg | ⟨pub, -, h⟩
    · obtain ⟨err, -, he⟩ := mapError_eq_error.1 hg
      exact append_ne_of_length_lt _ (by decide) (GoError.error.inj he)
    rcases except_bind_eq_error.1 h with hg | ⟨⟨⟩, -, h⟩
    · exact absurd (ite_throw_eq_error.1 hg).2 (by decide)
    rcases except_bind_eq_error.1 h with hg | ⟨authz, -, h⟩
    · exact (handleAuthorization_eq_error hak hg).ne_expired rfl
    -- the nonce is written under the key it was just read with
    rw [incrementNonce_eq_ok hkey, withContext_ok, except_bind_ok] at h
    cases h
  · rintro ⟨howner, hspender, hdeadline⟩
    simp only [permit, howner, hspender, Bool.false_eq_true, if_false, if_pos hdeadline, pure_bind]
    rfl

/-- What a returned permit did: the nonce read and signed over went up by one, modulo `2 ^ 256`,
and no other; the spender's allowance of the denomination is the value, every other denomination
and every other grant is as it was. -/
theorem permit_ok_spec (hak : ak.Lawful) {out : Bool} {s' : PermitStore γ}
    (h : permit ak c m blockTime i s = .ok (out, s')) :
    nonces c m s i.owner = .ok (nonceOf m s i.owner) ∧ Signs c m i (nonceOf m s i.owner) ∧
      nonces c m s' i.owner = .ok ((nonceOf m s i.owner + 1) % 2 ^ 256) ∧
      (∀ a ≠ i.owner, nonceOf m s' a = nonceOf m s a) ∧
      allowanceOf ak blockTime i.spender i.owner s'.authz m.denom = i.amount ∧
      (i.owner ≠ i.spender →
        allowance ak m.denom blockTime i.owner i.spender s'.authz = .ok i.amount) ∧
      (∀ d ≠ m.denom, allowance ak d blockTime i.owner i.spender s'.authz =
        allowance ak d blockTime i.owner i.spender s.authz) ∧
      ak.EqExcept i.spender i.owner s.authz s'.authz := by
  obtain ⟨howner, hspender, -, hkey, hsigns, authz, hauthz, rfl⟩ := permit_eq_ok h
  obtain ⟨hallow, hbefore, hafter, heq⟩ := handleAuthorization_eq_ok hak hauthz
  -- writing the nonce leaves the grants
  have hgrants : (setStateExtension i.owner (nonceSlot m.nonceKey)
      (bigEndianBytes (nonceOf m s i.owner + 1)) { s with authz := authz }).authz = authz := rfl
  refine ⟨nonces_eq_ok hkey _, hsigns, ?_, fun a ha => ?_, ?_, fun hne => ?_, fun d hd => ?_, heq⟩
  · rw [nonces_eq_ok hkey, nonceOf_setStateExtension, if_pos rfl]
  · rw [nonceOf_setStateExtension, if_neg ha, nonceOf_authz]
  · rw [hgrants, hallow, if_pos rfl]
  · rw [hgrants, allowance_of_ne howner hspender hne hafter, hallow, if_pos rfl]
  · rw [hgrants]
    by_cases hne : i.owner = i.spender
    · -- an owner's allowance of itself is the largest `uint256`, grant or none
      simp [allowance, hspender, hne]
    · rw [allowance_of_ne howner hspender hne hafter, allowance_of_ne howner hspender hne hbefore,
        hallow, if_neg hd]

end permit

/-! ## Runs of the precompile -/

/-- A call of the precompile that writes: `permit`, or `approve` from its caller. -/
inductive Erc20Call where
  | permit (blockTime : Int) (inputs : PermitInputs)
  | approve (blockTime : Int) (granter spender : Bytes) (amount : Nat)

/-- A call on the store; one that fails leaves the store as it was. -/
def Erc20Call.run {γ : Type} (ak : AuthzKeeper γ) (c : Crypto) (m : PermitMethod) :
    Erc20Call → EStateM GoError (PermitStore γ) Bool
  | .permit blockTime inputs => fun s =>
    match Erc20.permit ak c m blockTime inputs s with
    | .ok (out, s') => .ok out s'
    | .error e => .error e s
  | .approve blockTime granter spender amount => fun s =>
    match Erc20.approve ak m.denom blockTime granter spender amount s.authz with
    | .ok (out, authz) => .ok out { s with authz }
    | .error e => .error e s

section runs
variable {γ : Type} {ak : AuthzKeeper γ} {c : Crypto} {m : PermitMethod}

theorem nonceOf_commit_run (call : Erc20Call) (s : PermitStore γ) (address : Bytes) :
    ∃ b ≤ 1, nonceOf m (commit (call.run ak c m) s) address =
      (nonceOf m s address + b) % 2 ^ 256 := by
  have hlt := nonceOf_lt m s address
  have hsame : nonceOf m s address = (nonceOf m s address + 0) % 2 ^ 256 := by
    rw [Nat.add_zero, Nat.mod_eq_of_lt hlt]
  cases call with
  | permit blockTime inputs =>
    cases hp : permit ak c m blockTime inputs s with
    | error e =>
      have hc : commit ((Erc20Call.permit blockTime inputs).run ak c m) s = s := by
        simp [commit, Erc20Call.run, EStateM.run, hp]
      exact ⟨0, by omega, by rw [hc]; exact hsame⟩
    | ok r =>
      obtain ⟨out, s'⟩ := r
      obtain ⟨-, -, -, -, -, authz, -, rfl⟩ := permit_eq_ok hp
      have hc : commit ((Erc20Call.permit blockTime inputs).run ak c m) s =
          setStateExtension inputs.owner (nonceSlot m.nonceKey)
            (bigEndianBytes (nonceOf m s inputs.owner + 1)) { s with authz := authz } := by
        simp [commit, Erc20Call.run, EStateM.run, hp]
      rw [hc, nonceOf_setStateExtension]
      split
      · next ha => exact ⟨1, le_refl 1, by rw [ha]⟩
      · exact ⟨0, by omega, by rw [nonceOf_authz]; exact hsame⟩
  | approve blockTime granter spender amount =>
    -- `approve` writes only grants
    have hc : nonceOf m (commit ((Erc20Call.approve blockTime granter spender amount).run ak c m)
        s) address = nonceOf m s address := by
      cases ha : approve ak m.denom blockTime granter spender amount s.authz with
      | error e => simp [commit, Erc20Call.run, EStateM.run, ha]
      | ok r => simp [commit, Erc20Call.run, EStateM.run, ha]
    exact ⟨0, by omega, by rw [hc]; exact hsame⟩

/-- The run: after any run of calls, a nonce has moved by at most the number of calls, modulo
`2 ^ 256`. -/
theorem nonceOf_runAll (calls : List Erc20Call) (s : PermitStore γ) (address : Bytes) :
    ∃ k ≤ calls.length, nonceOf m (runAll (Erc20Call.run ak c m) calls s) address =
      (nonceOf m s address + k) % 2 ^ 256 := by
  induction calls generalizing s with
  | nil =>
    refine ⟨0, le_refl 0, ?_⟩
    rw [runAll, Nat.add_zero, Nat.mod_eq_of_lt (nonceOf_lt m s address)]
  | cons call calls ih =>
    obtain ⟨b, hb, hstep⟩ := nonceOf_commit_run call s address
    obtain ⟨k, hk, hrun⟩ := ih (commit (call.run ak c m) s)
    refine ⟨b + k, by simp only [List.length_cons]; omega, ?_⟩
    rw [runAll, hrun, hstep, Nat.mod_add_mod, Nat.add_assoc]

end runs

theorem nonce_eq_of_encodedPermitParams_eq {c : Crypto} {owner spender : Bytes}
    {amount n₁ n₂ deadline : Nat}
    (h : encodedPermitParams c owner spender amount n₁ deadline =
      encodedPermitParams c owner spender amount n₂ deadline) :
    n₁ % 2 ^ 256 = n₂ % 2 ^ 256 := by
  unfold encodedPermitParams at h
  -- the deadline words have one length, and the rest before the nonce is the same
  have hfront := List.append_inj_left' h (by simp)
  have hword := List.append_cancel_left hfront
  rw [← bigSetBytes_u256Bytes, ← bigSetBytes_u256Bytes, hword]

/-! ## The permit against EIP-2612 -/

/-- The permit against EIP-2612, for an x/authz keeper that meets its laws. It is refused as
expired exactly when both addresses are set and the low 64 bits of the deadline, read as an
`int64`, are before the block's second. When it returns, the signature recovers to the owner over
the digest with the owner's nonce, that nonce went up by one modulo `2 ^ 256` and no other moved,
the spender's allowance of the denomination is the value while every other denomination and every
other grant is as it was; and a second application of the same inputs, after fewer than
`2 ^ 256 - 1` calls, needs the signature to recover the owner over a permit of another nonce. -/
theorem permit_spec {γ : Type} (ak : AuthzKeeper γ) (hak : ak.Lawful) (c : Crypto)
    (m : PermitMethod) (blockTime : Int) (i : PermitInputs) (s : PermitStore γ) :
    (permit ak c m blockTime i s = .error (.error "permit expired") ↔
      isZeroAddress i.owner = false ∧ isZeroAddress i.spender = false ∧
        (i.deadline : Int).bmod (2 ^ 64) < blockTime / 10 ^ 9) ∧
    (∀ out s', permit ak c m blockTime i s = .ok (out, s') →
      nonces c m s i.owner = .ok (nonceOf m s i.owner) ∧ Signs c m i (nonceOf m s i.owner) ∧
      nonces c m s' i.owner = .ok ((nonceOf m s i.owner + 1) % 2 ^ 256) ∧
      (∀ a ≠ i.owner, nonceOf m s' a = nonceOf m s a) ∧
      allowanceOf ak blockTime i.spender i.owner s'.authz m.denom = i.amount ∧
      (i.owner ≠ i.spender →
        allowance ak m.denom blockTime i.owner i.spender s'.authz = .ok i.amount) ∧
      (∀ d ≠ m.denom, allowance ak d blockTime i.owner i.spender s'.authz =
        allowance ak d blockTime i.owner i.spender s.authz) ∧
      ak.EqExcept i.spender i.owner s.authz s'.authz) ∧
    (∀ out₁ s₁ calls blockTime' out₂ s₂, permit ak c m blockTime i s = .ok (out₁, s₁) →
      calls.length + 1 < 2 ^ 256 →
      permit ak c m blockTime' i (runAll (Erc20Call.run ak c m) calls s₁) = .ok (out₂, s₂) →
      ∃ n₁ n₂, encodedPermitParams c i.owner i.spender i.amount n₁ i.deadline ≠
          encodedPermitParams c i.owner i.spender i.amount n₂ i.deadline ∧
        Signs c m i n₁ ∧ Signs c m i n₂) := by
  refine ⟨permit_eq_expired_iff hak, fun _ _ h => permit_ok_spec hak h, ?_⟩
  -- a second application of the message signs a permit with another nonce
  intro out₁ s₁ calls blockTime' out₂ s₂ h₁ hlen h₂
  obtain ⟨-, -, -, -, hsigns₁, authz, -, rfl⟩ := permit_eq_ok h₁
  obtain ⟨-, -, -, -, hsigns₂, -⟩ := permit_eq_ok h₂
  refine ⟨_, _, fun henc => ?_, hsigns₁, hsigns₂⟩
  have hmod := nonce_eq_of_encodedPermitParams_eq henc
  -- the first permit moved the nonce by one, the calls in between by at most their number
  obtain ⟨k, hk, hrun⟩ := @nonceOf_runAll _ ak c m calls (setStateExtension i.owner
    (nonceSlot m.nonceKey) (bigEndianBytes (nonceOf m s i.owner + 1)) { s with authz := authz })
    i.owner
  rw [nonceOf_setStateExtension, if_pos rfl, Nat.mod_add_mod] at hrun
  rw [hrun, Nat.mod_mod, Nat.mod_eq_of_lt (nonceOf_lt m s i.owner)] at hmod
  have hM : (2 : Nat) ^ 256 =
      115792089237316195423570985008687907853269984665640564039457584007913129639936 := by norm_num
  have hlt := nonceOf_lt m s i.owner
  rw [hM] at hmod hlen hlt
  omega

/-- A permit signed by the owner over nonce 0, on a keeper of grants as a map: it returns, the
nonce is then 1, and the spender is allowed the value. The key recovery gives a key whose address
is the owner's; the signature's values pass go-ethereum's check. -/
theorem permit_spec_signed :
    let c : Crypto := { Crypto.goEthereum (fun _ => List.replicate 32 0)
      (fun _ => List.length_replicate) (fun _ _ => .ok []) with
      pubkeyToAddress := fun _ => List.replicate 20 1 }
    let m : PermitMethod := ⟨"abtc", [], [1, 2]⟩
    let i : PermitInputs := ⟨List.replicate 20 1, List.replicate 20 2, 5, 2 ^ 62, 27, [1], [1]⟩
    let s : PermitStore AuthzStore := ⟨⟨fun _ _ => none⟩, fun _ _ => []⟩
    AuthzStore.keeper.Lawful ∧
      ∃ out s', permit AuthzStore.keeper c m (1735689600 * 10 ^ 9) i s = .ok (out, s') ∧
        nonces c m s' i.owner = .ok 1 ∧
        allowance AuthzStore.keeper m.denom (1735689600 * 10 ^ 9) i.owner i.spender s'.authz =
          .ok 5 := by
  intro c m i s
  obtain ⟨⟨out, s'⟩, hp⟩ := except_isOk_iff.1
    (by decide +kernel : (permit AuthzStore.keeper c m (1735689600 * 10 ^ 9) i s).isOk = true)
  obtain ⟨-, -, hnonce, -, -, hallow, -, -⟩ :=
    (permit_spec AuthzStore.keeper AuthzStore.lawful c m (1735689600 * 10 ^ 9) i s).2.1 _ _ hp
  refine ⟨AuthzStore.lawful, out, s', hp, ?_, hallow (by decide)⟩
  rw [hnonce]
  decide +kernel

/-- The usual deadline for none, `2 ^ 256 - 1`, is after the block time, yet `Int64` reads it as
`-1` and the permit is refused as expired; what the hash, the key recovery and the store are
plays no part. -/
theorem permit_maxDeadline :
    permit AuthzStore.keeper
        (Crypto.goEthereum (fun _ => List.replicate 32 0) (fun _ => List.length_replicate)
          (fun _ _ => .error "no key"))
        ⟨"abtc", [], [1, 2]⟩ (1735689600 * 10 ^ 9)
        ⟨List.replicate 20 1, List.replicate 20 2, 1, 2 ^ 256 - 1, 27, [], []⟩
        ⟨⟨fun _ _ => none⟩, fun _ _ => []⟩ =
      .error (.error "permit expired") ∧
    (1735689600 * 10 ^ 9 : Int) / 10 ^ 9 ≤ ((2 ^ 256 - 1 : Nat) : Int) :=
  ⟨(permit_eq_expired_iff AuthzStore.lawful).2 ⟨by decide, by decide, by decide⟩, by decide⟩

end Erc20
end Mezod
