import Mezod.Bridge.Types.AssetsLocked
import Mezod.Lib.Sorted

/-! # Allowances of the ERC20 precompiles (`precompile/erc20/approve.go`, `allowance.go`)

An allowance is an x/authz grant of a bank `SendAuthorization` from the owner to the spender,
under the type URL of `MsgSend`. The BTC and the MEZO precompile share that grant, and each reads
and writes the coin of its own denomination in the spend limit. `handleAuthorization` creates the
grant, moves the one coin to the amount asked, or deletes the grant once no coin is left; it keeps
the grant's expiration.

The x/authz keeper is outside this repository. It enters as an `AuthzKeeper` over its own state,
and the proofs use only its laws (`AuthzKeeper.Lawful`): a grant saved at a block time is in force
at that time, a deleted one is gone, each call touches its own grant only, and each fails with the
SDK's error. `AuthzStore` is a keeper of grants as a map, which meets the laws, for running the
precompile on fixed inputs.

`sdk.Coins` is kept in the form its operations keep it in (`Coins`): ordered by denomination,
with no denomination twice and every amount positive, so that `Sort` is the identity and
`AmountOfNoDenomValidation` a lookup. Times are nanoseconds since the Unix epoch. The texts of
the SDK's errors are those of its registered errors, without the context they are wrapped in.

`handleAuthorization_eq_ok` is what a caller needs: when it returns, the grant in force gives the
amount asked for the denomination, and every other coin and every other grant is as it was. -/

namespace Mezod
namespace Erc20
open Go

/-- `sdk.Coins`, ordered by denomination, with positive amounts. -/
structure Coins where
  toList : List (String × Nat)
  sorted : OrderedMap.Sorted toList
  pos : ∀ c ∈ toList, 0 < c.2

namespace Coins

/-- `AmountOfNoDenomValidation`. -/
def amountOf (coins : Coins) (denom : String) : Nat :=
  (coins.toList.lookup denom).getD 0

theorem pos_insert {l : List (String × Nat)} (hs : OrderedMap.Sorted l) (hl : ∀ c ∈ l, 0 < c.2)
    {denom : String} {amount : Nat} (h : 0 < amount) :
    ∀ c ∈ OrderedMap.insert denom amount l, 0 < c.2 := by
  intro c hc
  rcases (OrderedMap.mem_insert hs).1 hc with rfl | ⟨hc, -⟩
  · exact h
  · exact hl c hc

/-- `sdk.Coins{{Denom: denom, Amount: amount}}`. -/
def single (denom : String) (amount : Nat) (h : 0 < amount) : Coins :=
  ⟨[(denom, amount)], List.pairwise_singleton _ _, by simpa using h⟩

/-- `Add` of one positive coin. -/
def add (coins : Coins) (denom : String) (amount : Nat) (h : 0 < amount) : Coins :=
  ⟨OrderedMap.insert denom (coins.amountOf denom + amount) coins.toList,
    OrderedMap.sorted_insert coins.sorted, pos_insert coins.sorted coins.pos (by omega)⟩

/-- `Sub` of one coin: a negative amount panics, a zero one is dropped. -/
def sub (coins : Coins) (denom : String) (amount : Nat) : Except GoError Coins :=
  if h₁ : coins.amountOf denom < amount then .error (.panic "negative coin amount")
  else if h₂ : coins.amountOf denom = amount then
    .ok ⟨OrderedMap.erase denom coins.toList, OrderedMap.sorted_erase coins.sorted,
      fun c hc => coins.pos c (OrderedMap.mem_erase.1 hc).1⟩
  else
    .ok ⟨OrderedMap.insert denom (coins.amountOf denom - amount) coins.toList,
      OrderedMap.sorted_insert coins.sorted, pos_insert coins.sorted coins.pos (by omega)⟩

/-- `IsZero`: every amount being positive, no coin is left. -/
def isZero (coins : Coins) : Bool := coins.toList.isEmpty

variable {coins coins' : Coins} {denom : String} {amount : Nat}

theorem amountOf_single {h : 0 < amount} (d : String) :
    (single denom amount h).amountOf d = if d = denom then amount else 0 := by
  by_cases hd : d = denom
  · simp [single, amountOf, hd]
  · simp [single, amountOf, List.lookup, beq_false_of_ne hd, hd]

theorem amountOf_add {h : 0 < amount} (d : String) :
    (coins.add denom amount h).amountOf d =
      if d = denom then coins.amountOf denom + amount else coins.amountOf d := by
  unfold add amountOf
  rw [OrderedMap.lookup_insert coins.sorted]
  split <;> rfl

theorem amountOf_sub (hsub : coins.sub denom amount = .ok coins') (d : String) :
    coins'.amountOf d = if d = denom then coins.amountOf denom - amount else coins.amountOf d := by
  unfold sub at hsub
  split at hsub
  · cases hsub
  split at hsub
  · -- the coin goes: its amount reads as zero
    next h₂ =>
    cases hsub
    unfold amountOf at h₂ ⊢
    rw [OrderedMap.lookup_erase]
    by_cases hd : d = denom
    · simp [hd, h₂]
    · simp [hd]
  · cases hsub
    unfold amountOf
    rw [OrderedMap.lookup_insert coins.sorted]
    split <;> rfl

theorem isZero_iff : coins.isZero ↔ ∀ d, coins.amountOf d = 0 := by
  unfold isZero
  constructor
  · intro h d
    simp [amountOf, List.isEmpty_iff.1 h]
  · intro h
    match hl : coins.toList with
    | [] => rfl
    | (d, a) :: rest =>
      -- the first coin has a positive amount
      have hmem : (d, a) ∈ coins.toList := by simp [hl]
      have hlookup := (OrderedMap.lookup_eq_some_iff coins.sorted).2 hmem
      have hpos := coins.pos _ hmem
      have hzero := h d
      rw [amountOf, hlookup] at hzero
      simp only [Option.getD_some] at hzero hpos
      omega

end Coins

/-- A bank `SendAuthorization`. -/
structure SendAuthorization where
  spendLimit : Coins
  allowList : List String

/-- `ValidateBasic` of a `SendAuthorization`. -/
def SendAuthorization.validateBasic (a : SendAuthorization) : Except String Unit :=
  if a.spendLimit.toList.isEmpty then .error "spend limit must be positive: invalid coins"
  else if !decide a.allowList.Nodup then .error "duplicate entry"
  else .ok ()

/-- The authorization of a grant under the type URL of `MsgSend`: a `SendAuthorization`, or one
of another type, such as a `GenericAuthorization`. -/
inductive Authorization where
  | send (a : SendAuthorization)
  | other

/-- An x/authz grant, with its expiration if it has one. -/
structure Grant where
  authorization : Authorization
  expiration : Option Int

/-- The x/authz keeper's calls on the grants under the type URL of `MsgSend`, by grantee and
granter, over its state `γ`. -/
structure AuthzKeeper (γ : Type) where
  /-- `GetAuthorization` at a block time: the authorization of the grant in force, and its
  expiration. -/
  getAuthorization : Int → Bytes → Bytes → γ → Option Authorization × Option Int
  /-- `SaveGrant` at a block time. -/
  saveGrant : Int → Bytes → Bytes → Authorization → Option Int → γ → Except GoError γ
  /-- `DeleteGrant`. -/
  deleteGrant : Bytes → Bytes → γ → Except GoError γ

namespace AuthzKeeper
variable {γ : Type} (ak : AuthzKeeper γ)

/-- Every grant but the one of `grantee` and `granter` reads as it did, at every block time. -/
def EqExcept (grantee granter : Bytes) (g g' : γ) : Prop :=
  ∀ t a b, ¬ (a = grantee ∧ b = granter) →
    ak.getAuthorization t a b g' = ak.getAuthorization t a b g

/-- What the precompile relies on of x/authz: a grant saved at a block time is in force at that
time, a deleted one is gone, each call touches its own grant only, and each fails with the SDK's
error. -/
structure Lawful : Prop where
  getAuthorization_saveGrant : ∀ {t grantee granter authorization expiration g g'},
    ak.saveGrant t grantee granter authorization expiration g = .ok g' →
      ak.getAuthorization t grantee granter g' = (some authorization, expiration)
  getAuthorization_deleteGrant : ∀ {t grantee granter g g'},
    ak.deleteGrant grantee granter g = .ok g' → ak.getAuthorization t grantee granter g' = (none, none)
  eqExcept_saveGrant : ∀ {t grantee granter authorization expiration g g'},
    ak.saveGrant t grantee granter authorization expiration g = .ok g' →
      ak.EqExcept grantee granter g g'
  eqExcept_deleteGrant : ∀ {grantee granter g g'},
    ak.deleteGrant grantee granter g = .ok g' → ak.EqExcept grantee granter g g'
  saveGrant_eq_error : ∀ {t grantee granter authorization expiration g e},
    ak.saveGrant t grantee granter authorization expiration g = .error e →
      e = .error "expiration time of authorization should be more than current time"
  deleteGrant_eq_error : ∀ {grantee granter g e},
    ak.deleteGrant grantee granter g = .error e → e = .error "authorization not found"

variable {ak}

theorem EqExcept.refl {grantee granter : Bytes} {g : γ} : ak.EqExcept grantee granter g g :=
  fun _ _ _ _ => rfl

end AuthzKeeper

/-! ## A keeper of grants as a map -/

/-- The grants as a map by grantee and granter, each with its expiration. -/
structure AuthzStore where
  grants : Bytes → Bytes → Option Grant

namespace AuthzStore

/-- The store with the grant of one grantee and granter replaced. -/
def setGrant (grantee granter : Bytes) (grant : Option Grant) (g : AuthzStore) : AuthzStore :=
  ⟨fun a b => if a = grantee ∧ b = granter then grant else g.grants a b⟩

/-- A grant past its expiration reads as none; a save refuses an expiration that is not after the
block time; a deletion refuses a grant that is not there. -/
def keeper : AuthzKeeper AuthzStore where
  getAuthorization blockTime grantee granter g :=
    match g.grants grantee granter with
    | none => (none, none)
    | some grant =>
      if grant.expiration.any (· < blockTime) then (none, none)
      else (some grant.authorization, grant.expiration)
  saveGrant blockTime grantee granter authorization expiration g :=
    if expiration.any (· ≤ blockTime) then
      .error (.error "expiration time of authorization should be more than current time")
    else .ok (g.setGrant grantee granter (some ⟨authorization, expiration⟩))
  deleteGrant grantee granter g :=
    if (g.grants grantee granter).isNone then .error (.error "authorization not found")
    else .ok (g.setGrant grantee granter none)

theorem keeper_eqExcept_setGrant {grantee granter : Bytes} {g : AuthzStore} (grant : Option Grant) :
    keeper.EqExcept grantee granter g (g.setGrant grantee granter grant) := by
  intro t a b h
  simp only [keeper, setGrant, if_neg h]

theorem keeper_saveGrant_eq_ok {t : Int} {grantee granter : Bytes} {authorization : Authorization}
    {expiration : Option Int} {g g' : AuthzStore}
    (h : keeper.saveGrant t grantee granter authorization expiration g = .ok g') :
    ¬ expiration.any (· ≤ t) ∧ g' = g.setGrant grantee granter (some ⟨authorization, expiration⟩) := by
  simp only [keeper] at h
  split at h
  · cases h
  · next hexp =>
    cases h
    exact ⟨hexp, rfl⟩

theorem keeper_deleteGrant_eq_ok {grantee granter : Bytes} {g g' : AuthzStore}
    (h : keeper.deleteGrant grantee granter g = .ok g') : g' = g.setGrant grantee granter none := by
  simp only [keeper] at h
  split at h
  · cases h
  · cases h
    rfl

theorem lawful : keeper.Lawful where
  getAuthorization_saveGrant {t _ _ _ expiration _ _} h := by
    obtain ⟨hexp, rfl⟩ := keeper_saveGrant_eq_ok h
    -- an expiration after the block time keeps the grant in force
    have hlive : ¬ expiration.any (· < t) := by
      cases expiration with
      | none => simp
      | some e =>
        simp only [Option.any_some, decide_eq_true_eq] at hexp ⊢
        omega
    simp [keeper, setGrant, hlive]
  getAuthorization_deleteGrant h := by
    rw [keeper_deleteGrant_eq_ok h]
    simp [keeper, setGrant]
  eqExcept_saveGrant h := by
    obtain ⟨-, rfl⟩ := keeper_saveGrant_eq_ok h
    exact keeper_eqExcept_setGrant _
  eqExcept_deleteGrant h := by
    rw [keeper_deleteGrant_eq_ok h]
    exact keeper_eqExcept_setGrant _
  saveGrant_eq_error h := by
    simp only [keeper] at h
    split at h
    · cases h
      rfl
    · cases h
  deleteGrant_eq_error h := by
    simp only [keeper] at h
    split at h
    · cases h
      rfl
    · cases h

end AuthzStore

/-- `ApprovalExpiration`: a hundred years of 365 days. -/
def approvalExpiration : Int := 24 * 365 * 100 * 3600 * 10 ^ 9

/-- `abi.MaxUint256`. -/
def maxUint256 : Nat := 2 ^ 256 - 1

/-- `isZeroAddress`. -/
def isZeroAddress (address : Bytes) : Bool := address == List.replicate 20 0

/-! ## `handleAuthorization` -/

/-- `TypesConverter.BigInt.ToSDK`: a value past `MaxBitLen`, 256 bits, is refused. -/
def toSDK (value : Nat) : Except String Nat :=
  if 256 < value.size then .error "value is exceeding the maximum bit length: [256]"
  else .ok value

section calls
variable {γ : Type} (ak : AuthzKeeper γ)

/-- `createAuthorization`: a grant of the one coin, for a hundred years. -/
def createAuthorization (blockTime : Int) (denom : String) (grantee granter : Bytes)
    (amount : Nat) (h : 0 < amount) (g : γ) : Except GoError γ :=
  match toSDK amount with
  | .error err => .error (.error ("failed to convert amount: [" ++ err ++ "]"))
  | .ok _ =>
    -- `ToSDK` gives back the value it checked
    let authorization : SendAuthorization := ⟨Coins.single denom amount h, []⟩
    match authorization.validateBasic with
    | .error err => .error (.error err)
    | .ok () => ak.saveGrant blockTime grantee granter (.send authorization)
        (some (blockTime + approvalExpiration)) g

/-- The end of `updateAuthorization`: a spend limit with no coin left deletes the grant, any
other is validated and saved with the grant's expiration. -/
def saveSpendLimit (blockTime : Int) (grantee granter : Bytes) (sendAuthz : SendAuthorization)
    (spendLimit : Coins) (expiration : Option Int) (g : γ) : Except GoError γ :=
  if spendLimit.isZero then ak.deleteGrant grantee granter g
  else
    let sendAuthz := { sendAuthz with spendLimit := spendLimit }
    match sendAuthz.validateBasic with
    | .error err => .error (.error ("failed to validate new spend authorization: [" ++ err ++ "]"))
    | .ok () => ak.saveGrant blockTime grantee granter (.send sendAuthz) expiration g

/-- `updateAuthorization`: the coin of `denom` moved by the difference to the amount asked. -/
def updateAuthorization (blockTime : Int) (denom : String) (grantee granter : Bytes)
    (amount : Nat) (authorization : Authorization) (expiration : Option Int) (g : γ) :
    Except GoError γ :=
  match authorization with
  | .other => .error (.error "unknown authorization type")
  | .send sendAuthz =>
    match toSDK amount with
    | .error err => .error (.error ("failed to convert amount: [" ++ err ++ "]"))
    | .ok targetAmount =>
      -- `Sort` keeps a spend limit that is already ordered
      let currentAmount := sendAuthz.spendLimit.amountOf denom
      if h : currentAmount < targetAmount then
        saveSpendLimit ak blockTime grantee granter sendAuthz
          (sendAuthz.spendLimit.add denom (targetAmount - currentAmount) (by omega)) expiration g
      else if targetAmount < currentAmount then
        match sendAuthz.spendLimit.sub denom (currentAmount - targetAmount) with
        | .error e => .error e
        | .ok spendLimit =>
          saveSpendLimit ak blockTime grantee granter sendAuthz spendLimit expiration g
      else .ok g

/-- `handleAuthorization`. -/
def handleAuthorization (denom : String) (authorization : Option Authorization) (spender : Bytes)
    (amount : Nat) (blockTime : Int) (granter : Bytes) (expiration : Option Int) (g : γ) :
    Except GoError γ :=
  match authorization with
  -- no grant and nothing to allow is not an error, as ERC20 has it
  | none => if h : amount = 0 then .ok g
    else createAuthorization ak blockTime denom spender granter amount (Nat.pos_of_ne_zero h) g
  | some authorization =>
    updateAuthorization ak blockTime denom spender granter amount authorization expiration g

/-- `ApproveMethod.Run`, for the caller `granter`. -/
def approve (denom : String) (blockTime : Int) (granter spender : Bytes) (amount : Nat) (g : γ) :
    Except GoError (Bool × γ) :=
  if isZeroAddress spender then .error (.error "spender address cannot be empty")
  else
    let (authorization, expiration) := ak.getAuthorization blockTime spender granter g
    match handleAuthorization ak denom authorization spender amount blockTime granter expiration
        g with
    | .error e => .error e
    | .ok g' => .ok (true, g')

/-- `AllowanceMethod.Run`. -/
def allowance (denom : String) (blockTime : Int) (owner spender : Bytes) (g : γ) :
    Except GoError Nat :=
  if isZeroAddress owner then .error (.error "owner address cannot be empty")
  else if isZeroAddress spender then .error (.error "spender address cannot be empty")
  else if owner = spender then .ok maxUint256
  else
    match (ak.getAuthorization blockTime spender owner g).1 with
    | none => .ok 0
    | some (.send sendAuth) => .ok (sendAuth.spendLimit.amountOf denom)
    | some .other => .error (.error "expected authorization to be a types.SendAuthorization")

/-! ## What the grant in force allows -/

/-- The amount of `denom` that the grant in force lets the grantee spend, zero without one. -/
def allowanceOf (blockTime : Int) (grantee granter : Bytes) (g : γ) (denom : String) : Nat :=
  match (ak.getAuthorization blockTime grantee granter g).1 with
  | some (.send a) => a.spendLimit.amountOf denom
  | _ => 0

end calls

section keeper
variable {γ : Type} {ak : AuthzKeeper γ} {blockTime : Int} {grantee granter : Bytes} {g : γ}

theorem toSDK_eq_ok {value value' : Nat} (h : toSDK value = .ok value') : value' = value := by
  unfold toSDK at h
  split at h
  · cases h
  · cases h
    rfl

theorem allowanceOf_of_send {a : SendAuthorization}
    (h : (ak.getAuthorization blockTime grantee granter g).1 = some (.send a)) (denom : String) :
    allowanceOf ak blockTime grantee granter g denom = a.spendLimit.amountOf denom := by
  simp [allowanceOf, h]

theorem allowanceOf_of_none (h : (ak.getAuthorization blockTime grantee granter g).1 = none)
    (denom : String) : allowanceOf ak blockTime grantee granter g denom = 0 := by
  simp [allowanceOf, h]

end keeper

/-! ## The cases of `handleAuthorization` -/

section handle
variable {γ : Type} {ak : AuthzKeeper γ} (hak : ak.Lawful) {blockTime : Int} {denom : String}
  {grantee granter : Bytes} {amount : Nat} {g g' : γ}
include hak

theorem saveSpendLimit_eq_ok {sendAuthz : SendAuthorization} {spendLimit : Coins}
    {expiration : Option Int}
    (h : saveSpendLimit ak blockTime grantee granter sendAuthz spendLimit expiration g = .ok g') :
    (∀ d, allowanceOf ak blockTime grantee granter g' d = spendLimit.amountOf d) ∧
      (ak.getAuthorization blockTime grantee granter g').1 ≠ some .other ∧
      ak.EqExcept grantee granter g g' := by
  unfold saveSpendLimit at h
  split at h
  · -- the last coin went: the grant is deleted
    next hzero =>
    have hget := hak.getAuthorization_deleteGrant (t := blockTime) h
    refine ⟨fun d => ?_, by simp [hget], hak.eqExcept_deleteGrant h⟩
    rw [allowanceOf_of_none (by rw [hget]), Coins.isZero_iff.1 hzero d]
  · dsimp only at h
    split at h
    · cases h
    · have hget := hak.getAuthorization_saveGrant h
      refine ⟨fun d => ?_, by simp [hget], hak.eqExcept_saveGrant h⟩
      rw [allowanceOf_of_send (by rw [hget])]

theorem createAuthorization_eq_ok {h₀ : 0 < amount}
    (h : createAuthorization ak blockTime denom grantee granter amount h₀ g = .ok g') :
    (∀ d, allowanceOf ak blockTime grantee granter g' d = if d = denom then amount else 0) ∧
      (ak.getAuthorization blockTime grantee granter g').1 ≠ some .other ∧
      ak.EqExcept grantee granter g g' := by
  unfold createAuthorization at h
  split at h
  · cases h
  dsimp only at h
  split at h
  · cases h
  -- the new grant is in force at the block time it was saved at
  have hget := hak.getAuthorization_saveGrant h
  refine ⟨fun d => ?_, by simp [hget], hak.eqExcept_saveGrant h⟩
  rw [allowanceOf_of_send (by rw [hget]), Coins.amountOf_single]

theorem updateAuthorization_eq_ok {sendAuthz : SendAuthorization} {expiration : Option Int}
    (hget : ak.getAuthorization blockTime grantee granter g = (some (.send sendAuthz), expiration))
    (h : updateAuthorization ak blockTime denom grantee granter amount (.send sendAuthz) expiration
      g = .ok g') :
    (∀ d, allowanceOf ak blockTime grantee granter g' d =
      if d = denom then amount else sendAuthz.spendLimit.amountOf d) ∧
      (ak.getAuthorization blockTime grantee granter g').1 ≠ some .other ∧
      ak.EqExcept grantee granter g g' := by
  dsimp only [updateAuthorization] at h
  split at h
  · cases h
  · next targetAmount htarget =>
    rw [toSDK_eq_ok htarget] at h
    split at h
    · -- the coin grows by the difference
      obtain ⟨hallow, hother, heq⟩ := saveSpendLimit_eq_ok hak h
      refine ⟨fun d => ?_, hother, heq⟩
      rw [hallow, Coins.amountOf_add]
      split <;> omega
    split at h
    · -- the coin shrinks by the difference
      split at h
      · cases h
      · next spendLimit hsub =>
        obtain ⟨hallow, hother, heq⟩ := saveSpendLimit_eq_ok hak h
        refine ⟨fun d => ?_, hother, heq⟩
        rw [hallow, Coins.amountOf_sub hsub]
        split <;> omega
    · -- the coin is already the amount asked
      cases h
      refine ⟨fun d => ?_, by simp [hget], AuthzKeeper.EqExcept.refl⟩
      rw [allowanceOf_of_send (by rw [hget])]
      split
      · next hd => rw [hd]; omega
      · rfl

/-- What a returned `handleAuthorization` on the grant in force did: the grant now in force gives
`amount` of `denom` and the other coins as before, it is no other kind of authorization, and
every other grant is as it was. -/
theorem handleAuthorization_eq_ok {spender : Bytes}
    (h : handleAuthorization ak denom (ak.getAuthorization blockTime spender granter g).1 spender
      amount blockTime granter (ak.getAuthorization blockTime spender granter g).2 g = .ok g') :
    (∀ d, allowanceOf ak blockTime spender granter g' d =
      if d = denom then amount else allowanceOf ak blockTime spender granter g d) ∧
      (ak.getAuthorization blockTime spender granter g).1 ≠ some .other ∧
      (ak.getAuthorization blockTime spender granter g').1 ≠ some .other ∧
      ak.EqExcept spender granter g g' := by
  match hget : ak.getAuthorization blockTime spender granter g with
  | (none, expiration) =>
    have hnone : ∀ d, allowanceOf ak blockTime spender granter g d = 0 :=
      allowanceOf_of_none (by rw [hget])
    rw [hget] at h
    dsimp only [handleAuthorization] at h
    split at h
    · -- nothing granted and nothing asked
      next hzero =>
      cases h
      refine ⟨fun d => ?_, by simp, by simp [hget], AuthzKeeper.EqExcept.refl⟩
      rw [hnone]
      split <;> omega
    · obtain ⟨hallow, hother, heq⟩ := createAuthorization_eq_ok hak h
      refine ⟨fun d => ?_, by simp, hother, heq⟩
      rw [hallow, hnone]
  | (some .other, expiration) =>
    rw [hget] at h
    cases h
  | (some (.send sendAuthz), expiration) =>
    rw [hget] at h
    dsimp only [handleAuthorization] at h
    obtain ⟨hallow, hother, heq⟩ := updateAuthorization_eq_ok hak hget h
    refine ⟨fun d => ?_, by simp, hother, heq⟩
    rw [hallow, allowanceOf_of_send (by rw [hget])]

omit hak in
/-- `Allowance` of two distinct non-zero addresses reads the grant in force, unless that is
another kind of authorization. -/
theorem allowance_of_ne {owner spender : Bytes} (howner : isZeroAddress owner = false)
    (hspender : isZeroAddress spender = false) (hne : owner ≠ spender)
    (hother : (ak.getAuthorization blockTime spender owner g).1 ≠ some .other) :
    allowance ak denom blockTime owner spender g =
      .ok (allowanceOf ak blockTime spender owner g denom) := by
  simp only [allowance, howner, hspender, hne, Bool.false_eq_true, if_false]
  split
  · next hget => rw [allowanceOf_of_none hget]
  · next hget => rw [allowanceOf_of_send hget]
  · next hget => exact absurd hget hother

end handle

/-! ## What `handleAuthorization` fails with -/

/-- The failures of `handleAuthorization`, each naming what failed. -/
inductive AuthzError : GoError → Prop
  | convert (err : String) : AuthzError (.error ("failed to convert amount: [" ++ err ++ "]"))
  | spendLimit : AuthzError (.error "spend limit must be positive: invalid coins")
  | duplicate : AuthzError (.error "duplicate entry")
  | validate (err : String) :
      AuthzError (.error ("failed to validate new spend authorization: [" ++ err ++ "]"))
  | expiration : AuthzError (.error "expiration time of authorization should be more than current time")
  | notFound : AuthzError (.error "authorization not found")
  | unknownType : AuthzError (.error "unknown authorization type")
  | negative : AuthzError (.panic "negative coin amount")

theorem validateBasic_eq_error {a : SendAuthorization} {err : String}
    (h : a.validateBasic = .error err) :
    err = "spend limit must be positive: invalid coins" ∨ err = "duplicate entry" := by
  unfold SendAuthorization.validateBasic at h
  split at h
  · cases h
    exact .inl rfl
  · split at h
    · cases h
      exact .inr rfl
    · cases h

section errors
variable {γ : Type} {ak : AuthzKeeper γ} (hak : ak.Lawful) {blockTime : Int} {denom : String}
  {grantee granter : Bytes} {amount : Nat} {g : γ} {e : GoError}
include hak

theorem saveGrant_eq_error {authorization : Authorization} {expiration : Option Int}
    (h : ak.saveGrant blockTime grantee granter authorization expiration g = .error e) :
    AuthzError e := by
  rw [hak.saveGrant_eq_error h]
  exact .expiration

theorem deleteGrant_eq_error (h : ak.deleteGrant grantee granter g = .error e) : AuthzError e := by
  rw [hak.deleteGrant_eq_error h]
  exact .notFound

theorem createAuthorization_eq_error {h₀ : 0 < amount}
    (h : createAuthorization ak blockTime denom grantee granter amount h₀ g = .error e) :
    AuthzError e := by
  unfold createAuthorization at h
  split at h
  · cases h
    exact .convert _
  dsimp only at h
  split at h
  · next err hvalid =>
    cases h
    rcases validateBasic_eq_error hvalid with rfl | rfl
    · exact .spendLimit
    · exact .duplicate
  · exact saveGrant_eq_error hak h

theorem saveSpendLimit_eq_error {sendAuthz : SendAuthorization} {spendLimit : Coins}
    {expiration : Option Int}
    (h : saveSpendLimit ak blockTime grantee granter sendAuthz spendLimit expiration g = .error e) :
    AuthzError e := by
  unfold saveSpendLimit at h
  split at h
  · exact deleteGrant_eq_error hak h
  · dsimp only at h
    split at h
    · cases h
      exact .validate _
    · exact saveGrant_eq_error hak h

theorem updateAuthorization_eq_error {authorization : Authorization} {expiration : Option Int}
    (h : updateAuthorization ak blockTime denom grantee granter amount authorization expiration g =
      .error e) : AuthzError e := by
  unfold updateAuthorization at h
  split at h
  · cases h
    exact .unknownType
  · split at h
    · cases h
      exact .convert _
    · dsimp only at h
      split at h
      · exact saveSpendLimit_eq_error hak h
      · split at h
        · split at h
          · next hsub =>
            -- `Sub` panics only on a negative amount
            cases h
            unfold Coins.sub at hsub
            split at hsub
            · cases hsub
              exact .negative
            · split at hsub <;> cases hsub
          · exact saveSpendLimit_eq_error hak h
        · cases h

theorem handleAuthorization_eq_error {authorization : Option Authorization} {spender : Bytes}
    {expiration : Option Int}
    (h : handleAuthorization ak denom authorization spender amount blockTime granter expiration g =
      .error e) : AuthzError e := by
  unfold handleAuthorization at h
  split at h
  · split at h
    · cases h
    · exact createAuthorization_eq_error hak h
  · exact updateAuthorization_eq_error hak h

end errors

end Erc20
end Mezod
