import Mezod.Lib.StateM
import Mezod.Bridge.Types.AssetsLocked

/-! # The validator pool (`x/poa/keeper`, `x/poa/types`)

x/poa keeps the validators of a proof-of-authority chain. A candidate applies with its operator
address and consensus key; the owner approves the application, which makes the candidate a
`Joining` validator, and the next `EndBlocker` makes it `Active` and hands its key to CometBFT
with power 1. The owner kicks an active validator, or the validator leaves; it is then `Leaving`,
and the next `EndBlocker` removes it and hands CometBFT its key with power 0. Validators and
applications are kept under their operator address and indexed by their consensus address; a
privilege is a list of consensus addresses, kept sorted and without repeats.

`PoaStore` has a field for each key or prefix of `key.go` that a modelled call uses. A prefix
that some call iterates is an ordered list of its entries, in key order; one that is only looked
up is a function. A validator is kept as what its getters decode from its record, its operator
address and its consensus key, and `PoaCodec` holds the address and key codecs of the Cosmos SDK
that the keeper calls. -/

namespace Mezod
namespace Poa
open Go EStateM

/-- `ValidatorState`, stored as one byte. -/
inductive ValidatorState where
  | unknown
  | joining
  | active
  | leaving
  deriving DecidableEq, Repr

/-- A validator as `GetOperator()` and `GetConsPubKey()` read it. -/
structure Validator where
  operator : Bytes
  consPubKey : Bytes
  deriving DecidableEq, Repr

/-- `Application`. -/
structure Application where
  validator : Validator
  deriving DecidableEq, Repr

/-- `Params`. -/
structure Params where
  maxValidators : UInt32
  deriving DecidableEq, Repr

/-- `abci.ValidatorUpdate`: a consensus key and its new power. -/
structure ValidatorUpdate where
  pubKey : Bytes
  power : Int64
  deriving DecidableEq, Repr

/-- The Cosmos SDK's codecs of addresses and keys, as the keeper calls them. -/
structure PoaCodec where
  /-- `PubKey.Address()` of a consensus key. -/
  consAddress : Bytes → Bytes
  /-- `sdk.AccAddress.String()`. -/
  accString : Bytes → String
  /-- `sdk.ValAddress.String()`. -/
  valString : Bytes → String
  /-- `sdk.AccAddressFromBech32`. -/
  accAddressFromBech32 : String → Except String Bytes
  /-- `sdk.ValAddressFromBech32`, which `GetOperator()` calls. -/
  valAddressFromBech32 : String → Except String Bytes
  /-- `legacybech32.UnmarshalPubKey(ConsPK, ·)`, which `GetConsPubKey()` calls. -/
  consPubKeyFromBech32 : String → Except String Bytes

/-- The x/poa store. -/
structure PoaStore where
  /-- `ParamsKey`. -/
  params : Params
  /-- `OwnerKey`, empty when unset. -/
  owner : Bytes
  /-- `CandidateOwnerKey`, empty when unset. -/
  candidateOwner : Bytes
  /-- `ApplicationKeyPrefix`, by operator address. -/
  applications : List (Bytes × Application)
  /-- `ApplicationByConsAddrKeyPrefix`: the operator address under a consensus address. -/
  applicationByConsAddr : Bytes → Option Bytes
  /-- `ValidatorKeyPrefix`, by operator address. -/
  validators : List (Bytes × Validator)
  /-- `ValidatorByConsAddrKeyPrefix`. -/
  validatorByConsAddr : Bytes → Option Bytes
  /-- `ValidatorStateKeyPrefix`. -/
  validatorState : Bytes → Option ValidatorState
  /-- `ValidatorsByPrivilegeKeyPrefix`: the consensus addresses under a privilege. -/
  validatorsByPrivilege : List (String × List Bytes)
  /-- `HistoricalInfoKeyPrefix`: the validator set recorded at a height. -/
  historicalInfo : Int64 → Option (List Validator)

/-- The store before the genesis. -/
def PoaStore.empty : PoaStore where
  params := ⟨0⟩
  owner := []
  candidateOwner := []
  applications := []
  applicationByConsAddr _ := none
  validators := []
  validatorByConsAddr _ := none
  validatorState _ := none
  validatorsByPrivilege := []
  historicalInfo _ := none

/-- A keeper call on the x/poa store. -/
abbrev PoaM (α : Type) := EStateM GoError PoaStore α

/-- `DefaultHistoricalEntries`, the keeper's `historicalEntries`. -/
def historicalEntries : UInt32 := 10000

/-! ## Errors -/

/-- `ErrAlreadyApplying`. -/
def errAlreadyApplying : GoError := .error "the candidate is already applying to become a validator"
/-- `ErrAlreadyValidator`. -/
def errAlreadyValidator : GoError := .error "the candidate is already a validator"
/-- `ErrMaxValidatorsReached`. -/
def errMaxValidatorsReached : GoError := .error "the maximum number of validators has been reached"
/-- `ErrNoApplicationFound`. -/
def errNoApplicationFound : GoError := .error "no application found"
/-- `ErrNotValidator`. -/
def errNotValidator : GoError := .error "not a validator"
/-- `ErrOnlyOneValidator`. -/
def errOnlyOneValidator : GoError := .error "there is only one validator in the validator set"
/-- `ErrOwnershipTransferNotInitialized`. -/
def errOwnershipTransferNotInitialized : GoError := .error "pool ownership transfer not initialized"

variable (c : PoaCodec)

/-- `GetConsAddress()`. -/
def getConsAddress (v : Validator) : Bytes :=
  c.consAddress v.consPubKey

/-! ## Reads -/

namespace PoaStore
variable (s : PoaStore)

/-- `GetValidator`. -/
def getValidator (operator : Bytes) : Option Validator :=
  s.validators.lookup operator

/-- `GetValidatorByConsAddr`: an index entry holding no operator reads as absent. -/
def getValidatorByConsAddr (cons : Bytes) : Option Validator :=
  match s.validatorByConsAddr cons with
  | some operator => if operator.isEmpty then none else s.getValidator operator
  | none => none

/-- `GetApplication`. -/
def getApplication (operator : Bytes) : Option Application :=
  s.applications.lookup operator

/-- `GetApplicationByConsAddr`. -/
def getApplicationByConsAddr (cons : Bytes) : Option Application :=
  match s.applicationByConsAddr cons with
  | some operator => if operator.isEmpty then none else s.getApplication operator
  | none => none

/-- `GetAllValidators`, in key order. -/
def getAllValidators : List Validator :=
  s.validators.map Prod.snd

/-- The loop of `GetActiveValidators`, which panics on a validator with no state. -/
def activeValidators : List Validator → Except GoError (List Validator)
  | [] => .ok []
  | v :: rest =>
    match s.validatorState v.operator with
    | none => .error (.panic "Found a validator with no state, a validator should always have a state")
    | some state => do
      let active ← activeValidators rest
      pure (if state = .active then v :: active else active)

/-- `GetActiveValidators`. -/
def getActiveValidators : Except GoError (List Validator) :=
  s.activeValidators s.getAllValidators

/-- `GetValidatorsConsAddrsByPrivilege`. -/
def getValidatorsConsAddrsByPrivilege (privilege : String) : List Bytes :=
  (s.validatorsByPrivilege.lookup privilege).getD []

/-- `getAllPrivileges`, in key order. -/
def getAllPrivileges : List String :=
  s.validatorsByPrivilege.map Prod.fst

/-- `GetValidatorsOperatorsByPrivilege`, which panics on an address no validator has. -/
def getValidatorsOperatorsByPrivilege (privilege : String) : Except GoError (List Bytes) :=
  (s.getValidatorsConsAddrsByPrivilege privilege).mapM fun cons =>
    match s.getValidatorByConsAddr cons with
    | none => .error (.panic "consensus address has privilege but corresponding validator not found")
    | some validator => .ok validator.operator

end PoaStore

/-! ## Checks -/

/-- `checkAccount`: the sender is the expected account, as bech32 strings. -/
def checkAccount (sender expected : Bytes) (accName : String) : Except GoError Unit :=
  if sender.isEmpty then .error (.error "sender address is empty: invalid address")
  else if expected.isEmpty then .error (.error (accName ++ " address is empty: invalid address"))
  else if c.accString expected ≠ c.accString sender then
    .error (.error ("not the " ++ accName ++ "; expected " ++ c.accString expected ++
      ", sender " ++ c.accString sender ++ ": unauthorized"))
  else .ok ()

/-- `checkOwner`. -/
def checkOwner (s : PoaStore) (sender : Bytes) : Except GoError Unit :=
  checkAccount c sender s.owner "owner"

/-- `checkCandidateOwner`. -/
def checkCandidateOwner (s : PoaStore) (sender : Bytes) : Except GoError Unit :=
  if s.candidateOwner.isEmpty then .error errOwnershipTransferNotInitialized
  else checkAccount c sender s.candidateOwner "candidate owner"

/-- `checkValidatorOperator`. -/
def checkValidatorOperator (sender : Bytes) (validator : Validator) : Except GoError Unit :=
  checkAccount c sender validator.operator "validator operator"

/-- `checkMaxValidators`. -/
def checkMaxValidators (s : PoaStore) : Except GoError Unit :=
  if s.getAllValidators.length.toUInt32 ≥ s.params.maxValidators then .error errMaxValidatorsReached
  else .ok ()

/-! ## Writes -/

/-- `setValidator`. -/
def setValidator (validator : Validator) : PoaM Unit :=
  modify fun s => { s with validators := OrderedMap.insert validator.operator validator s.validators }

/-- `setValidatorByConsAddr`. -/
def setValidatorByConsAddr (validator : Validator) : PoaM Unit :=
  modify fun s => { s with
    validatorByConsAddr :=
      Function.update s.validatorByConsAddr (getConsAddress c validator) (some validator.operator) }

/-- `setValidatorState`, which panics on a state other than the three a validator can be in. -/
def setValidatorState (validator : Validator) (state : ValidatorState) : PoaM Unit := do
  (if state ≠ .joining ∧ state ≠ .active ∧ state ≠ .leaving then
    throw (.panic "Incorrect validator state") else pure ())
  modify fun s => { s with
    validatorState := Function.update s.validatorState validator.operator (some state) }

/-- `createValidator`: a new validator is `Joining`. -/
def createValidator (validator : Validator) : PoaM Unit := do
  setValidator validator
  setValidatorByConsAddr c validator
  setValidatorState validator .joining

/-- `setValidatorsConsAddrsByPrivilege`: the addresses are sorted and their repeats dropped. -/
def setValidatorsConsAddrsByPrivilege (privilege : String) (consAddrs : List Bytes) : PoaM Unit :=
  modify fun s => { s with
    validatorsByPrivilege := OrderedMap.insert privilege
      (compactFunc (· == ·) (sortFunc consAddrs)) s.validatorsByPrivilege }

/-- The body of the loop of `removeAllPrivileges`: the address is taken out of one privilege. -/
def removePrivilegeFrom (validatorConsAddr : Bytes) (privilege : String) : PoaM Unit := do
  let consAddrs := (← get).getValidatorsConsAddrsByPrivilege privilege
  if consAddrs.isEmpty then pure ()
  else
    match consAddrs.findIdx? (· == validatorConsAddr) with
    | none => pure ()
    | some index => setValidatorsConsAddrsByPrivilege privilege (consAddrs.eraseIdx index)

/-- `removeAllPrivileges`: the address is taken out of every privilege that lists it. -/
def removeAllPrivileges (validatorConsAddr : Bytes) : PoaM Unit := do
  let privileges := (← get).getAllPrivileges
  privileges.forM (removePrivilegeFrom validatorConsAddr)

/-- `removeValidator`: the record, its index entry, its state and its privileges go. -/
def removeValidator (operator : Bytes) : PoaM Unit := do
  match (← get).getValidator operator with
  | none => pure ()
  | some validator =>
    let cons := getConsAddress c validator
    removeAllPrivileges cons
    modify fun s => { s with
      validators := OrderedMap.erase operator s.validators
      validatorByConsAddr := Function.update s.validatorByConsAddr cons none
      validatorState := Function.update s.validatorState operator none }

/-- `createApplication`. -/
def createApplication (validator : Validator) : PoaM Unit :=
  modify fun s => { s with
    applications := OrderedMap.insert validator.operator ⟨validator⟩ s.applications
    applicationByConsAddr :=
      Function.update s.applicationByConsAddr (getConsAddress c validator) (some validator.operator) }

/-- `removeApplication`. -/
def removeApplication (operator : Bytes) : PoaM Unit := do
  match (← get).getApplication operator with
  | none => pure ()
  | some application =>
    modify fun s => { s with
      applications := OrderedMap.erase operator s.applications
      applicationByConsAddr :=
        Function.update s.applicationByConsAddr (getConsAddress c application.validator) none }

/-! ## Applications -/

/-- `SubmitApplication`. -/
def submitApplication (sender : Bytes) (validator : Validator) : PoaM Unit := do
  let s ← get
  fromExcept (checkValidatorOperator c sender validator)
  fromExcept (checkMaxValidators s)
  (if (s.getValidator validator.operator).isSome then throw errAlreadyValidator else pure ())
  (if (s.getValidatorByConsAddr (getConsAddress c validator)).isSome then
    throw errAlreadyValidator else pure ())
  (if (s.getApplication validator.operator).isSome then throw errAlreadyApplying else pure ())
  (if (s.getApplicationByConsAddr (getConsAddress c validator)).isSome then
    throw errAlreadyApplying else pure ())
  createApplication c validator

/-- `ApproveApplication`: the candidate becomes a `Joining` validator. -/
def approveApplication (sender operator : Bytes) : PoaM Unit := do
  let s ← get
  fromExcept (checkOwner c s sender)
  fromExcept (checkMaxValidators s)
  match s.getApplication operator with
  | none => throw errNoApplicationFound
  | some application =>
    removeApplication c operator
    createValidator c application.validator

/-- `CleanupApplications`: every application is removed. -/
def cleanupApplications (sender : Bytes) : PoaM Unit := do
  let s ← get
  fromExcept (checkOwner c s sender)
  (s.applications.map Prod.snd).forM fun application =>
    removeApplication c application.validator.operator

/-! ## Leaving the pool -/

/-- `setValidatorStateLeaving`: only an active validator can leave. -/
def setValidatorStateLeaving (operator : Bytes) : PoaM Unit := do
  let s ← get
  match s.getValidator operator with
  | none => throw errNotValidator
  | some validator =>
    match s.validatorState operator with
    | none => throw (.panic "Validator state is unknown")
    | some state =>
      (if state ≠ .active then
        throw (.error "not an active validator: wrong validator state") else pure ())
      setValidatorState validator .leaving

/-- `Kick`. -/
def kick (sender operator : Bytes) : PoaM Unit := do
  fromExcept (checkOwner c (← get) sender)
  setValidatorStateLeaving operator

/-- `Leave`: the sender's operator address is its account address. -/
def leave (sender : Bytes) : PoaM Unit := do
  let active ← fromExcept (← get).getActiveValidators
  (if active.length = 1 then throw errOnlyOneValidator else pure ())
  setValidatorStateLeaving sender

/-! ## Privileges -/

/-- The loop of `AddPrivilege` over the operators, from the consensus addresses so far. -/
def addPrivilegeLoop (s : PoaStore) (privilege : String) :
    List Bytes → List Bytes → Except GoError (List Bytes)
  | consAddrs, [] => .ok consAddrs
  | consAddrs, operator :: rest =>
    match s.getValidator operator with
    | none => .error (.error ("operator = " ++ c.valString operator ++ ": not a validator"))
    | some validator =>
      if consAddrs.any (· == getConsAddress c validator) then
        .error (.error ("operator = " ++ c.valString operator ++ ", privilege = " ++ privilege ++
          ": privilege already granted to the validator"))
      else addPrivilegeLoop s privilege (consAddrs ++ [getConsAddress c validator]) rest

/-- `AddPrivilege`. -/
def addPrivilege (sender : Bytes) (operators : List Bytes) (privilege : String) : PoaM Unit := do
  let s ← get
  fromExcept (checkOwner c s sender)
  (if operators.isEmpty then throw (.error "no operators provided") else pure ())
  (if privilege.isEmpty then throw (.error "no privilege provided") else pure ())
  let consAddrs ← fromExcept
    (addPrivilegeLoop c s privilege (s.getValidatorsConsAddrsByPrivilege privilege) operators)
  setValidatorsConsAddrsByPrivilege privilege consAddrs

/-- The loop of `RemovePrivilege` over the operators. -/
def removePrivilegeLoop (s : PoaStore) (privilege : String) :
    List Bytes → List Bytes → Except GoError (List Bytes)
  | consAddrs, [] => .ok consAddrs
  | consAddrs, operator :: rest =>
    match s.getValidator operator with
    | none => .error (.error ("operator = " ++ c.valString operator ++ ": not a validator"))
    | some validator =>
      match consAddrs.findIdx? (· == getConsAddress c validator) with
      | none => .error (.error ("operator = " ++ c.valString operator ++ ", privilege = " ++
          privilege ++ ": privilege not granted to the validator"))
      | some index => removePrivilegeLoop s privilege (consAddrs.eraseIdx index) rest

/-- `RemovePrivilege`. -/
def removePrivilege (sender : Bytes) (operators : List Bytes) (privilege : String) :
    PoaM Unit := do
  let s ← get
  fromExcept (checkOwner c s sender)
  (if operators.isEmpty then throw (.error "no operators provided") else pure ())
  (if privilege.isEmpty then throw (.error "no privilege provided") else pure ())
  let consAddrs ← fromExcept
    (removePrivilegeLoop c s privilege (s.getValidatorsConsAddrsByPrivilege privilege) operators)
  setValidatorsConsAddrsByPrivilege privilege consAddrs

/-! ## Ownership and parameters -/

/-- `TransferOwnership`. -/
def transferOwnership (sender newOwner : Bytes) : PoaM Unit := do
  fromExcept (checkOwner c (← get) sender)
  (if newOwner.isEmpty then throw (.error "new owner address is empty: invalid address")
    else pure ())
  modify fun s => { s with candidateOwner := newOwner }

/-- `AcceptOwnership`. -/
def acceptOwnership (sender : Bytes) : PoaM Unit := do
  fromExcept (checkCandidateOwner c (← get) sender)
  modify fun s => { s with owner := s.candidateOwner, candidateOwner := [] }

/-- `Params.Validate`. -/
def Params.validate (p : Params) : Except String Unit :=
  if p.maxValidators = 0 then .error "max validators must be positive: 0" else .ok ()

/-- `UpdateParams`. -/
def updateParams (sender : Bytes) (params : Params) : PoaM Unit := do
  fromExcept (checkOwner c (← get) sender)
  match params.validate with
  | .error err => throw (.error ("invalid params: " ++ err))
  | .ok () => modify fun s => { s with params := params }

/-! ## Blocks -/

/-- The pruning loop of `TrackHistoricalInfo`: from height `i` down, the entries are deleted up
to the first absent one; `fuel` counts the heights down to zero. -/
def pruneHistoricalInfo : Nat → Int64 → PoaM Unit
  | 0, _ => pure ()
  | fuel + 1, i =>
    if i < 0 then pure ()
    else do
      if ((← get).historicalInfo i).isSome then
        modify fun s => { s with historicalInfo := Function.update s.historicalInfo i none }
        pruneHistoricalInfo fuel (i - 1)
      else pure ()

/-- `TrackHistoricalInfo` at a height: the active validators, sorted stably by operator. -/
def trackHistoricalInfo (height : Int64) : PoaM Unit := do
  let start := height - historicalEntries.toUInt64.toInt64
  pruneHistoricalInfo (start.toInt + 1).toNat start
  if historicalEntries = 0 then pure ()
  else
    let lastVals ← fromExcept (← get).getActiveValidators
    let valSet := lastVals.mergeSort fun a b => decide (a.operator ≤ b.operator)
    modify fun s => { s with historicalInfo := Function.update s.historicalInfo height (some valSet) }

/-- `BeginBlocker`. -/
def beginBlocker (height : Int64) : PoaM Unit :=
  trackHistoricalInfo height

/-- The loop of `EndBlocker` over the validators as they were when it started. -/
def endBlockerLoop : List Validator → List ValidatorUpdate → PoaM (List ValidatorUpdate)
  | [], updates => pure updates
  | validator :: rest, updates => do
    match (← get).validatorState validator.operator with
    | none => throw (.panic "Found a validator with no state, a validator should always have a state")
    | some .active => endBlockerLoop rest updates
    | some .joining =>
      setValidatorState validator .active
      endBlockerLoop rest (updates ++ [⟨validator.consPubKey, 1⟩])
    | some .leaving =>
      removeValidator c validator.operator
      endBlockerLoop rest (updates ++ [⟨validator.consPubKey, 0⟩])
    | some .unknown => throw (.panic "A validator has an unknown state")

/-- `EndBlocker`: the updates of CometBFT's validator set. -/
def endBlocker : PoaM (List ValidatorUpdate) := do
  endBlockerLoop c (← get).getAllValidators []

end Poa
end Mezod
