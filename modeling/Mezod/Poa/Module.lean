import Mezod.Poa.Keeper

/-! # x/poa as the chain drives it (`x/poa/types/genesis.go`, `x/poa/keeper/genesis.go`)

The chain starts x/poa from a genesis and then makes calls on it: the messages of the
validator-pool precompile, each with the sender it was signed by, and the two block hooks.

`ValidateGenesis` checks the genesis as it is written, as strings: the owner decodes, no two
validators have the same operator string or the same consensus-key string, and no privilege
assignment is empty or repeated. `InitGenesis` decodes what it stores, and panics where a string
does not decode. Two strings that differ can decode to one address, as bech32 is read in either
case, and the checks on the strings do not see that. -/

namespace Mezod
namespace Poa
open Go EStateM

/-- `Validator` as a genesis holds it: bech32 strings, and a moniker for the messages. -/
structure GenesisValidator where
  operatorBech32 : String
  consPubKeyBech32 : String
  moniker : String
  deriving DecidableEq, Repr

/-- `ValidatorPrivilegeAssignment`. -/
structure ValidatorPrivilegeAssignment where
  operatorBech32 : String
  privilege : String
  deriving DecidableEq, Repr

/-- `GenesisState`. -/
structure GenesisState where
  params : Params
  owner : String
  validators : List GenesisValidator
  privilegeAssignments : List ValidatorPrivilegeAssignment
  emergencyTeam : String
  deriving DecidableEq, Repr

variable (c : PoaCodec)

/-! ## `ValidateGenesis` -/

/-- The loop of `validateGenesisStateValidators`, with the operator and key strings seen. -/
def validateGenesisStateValidatorsLoop (operators consPubKeys : List String) :
    List GenesisValidator → Except String Unit
  | [] => .ok ()
  | validator :: rest =>
    if validator.operatorBech32 ∈ operators then
      .error ("duplicate validator in genesis state: moniker " ++ validator.moniker ++
        ", operator " ++ validator.operatorBech32)
    else if validator.consPubKeyBech32 ∈ consPubKeys then
      .error ("duplicate validator in genesis state: moniker " ++ validator.moniker ++
        ", consensus pubkey " ++ validator.consPubKeyBech32)
    else
      validateGenesisStateValidatorsLoop (validator.operatorBech32 :: operators)
        (validator.consPubKeyBech32 :: consPubKeys) rest

/-- `validateGenesisStateValidators`. -/
def validateGenesisStateValidators (validators : List GenesisValidator) : Except String Unit :=
  validateGenesisStateValidatorsLoop [] [] validators

/-- The loop of `validateGenesisStatePrivilegeAssignments`, with the keys `operator:privilege`
seen. -/
def validateGenesisStatePrivilegeAssignmentsLoop (seen : List String) :
    List ValidatorPrivilegeAssignment → Except String Unit
  | [] => .ok ()
  | assignment :: rest =>
    if assignment.operatorBech32.isEmpty || assignment.privilege.isEmpty then
      .error ("invalid privilege assignment in genesis state: operator " ++
        assignment.operatorBech32 ++ ", privilege " ++ assignment.privilege)
    else
      let key := assignment.operatorBech32 ++ ":" ++ assignment.privilege
      if key ∈ seen then
        .error ("duplicate privilege assignment in genesis state: validator " ++
          assignment.operatorBech32 ++ ", privilege " ++ assignment.privilege)
      else validateGenesisStatePrivilegeAssignmentsLoop (key :: seen) rest

/-- `validateGenesisStatePrivilegeAssignments`. -/
def validateGenesisStatePrivilegeAssignments (assignments : List ValidatorPrivilegeAssignment) :
    Except String Unit :=
  if assignments.length = 0 then .ok ()
  else validateGenesisStatePrivilegeAssignmentsLoop [] assignments

/-- `ValidateGenesis`. -/
def validateGenesis (data : GenesisState) : Except String Unit := do
  let _ ← (c.accAddressFromBech32 data.owner).mapError fun err =>
    "invalid owner address " ++ data.owner ++ ": " ++ err
  -- the emergency team is optional
  if data.emergencyTeam ≠ "" then
    let _ ← (c.accAddressFromBech32 data.emergencyTeam).mapError fun err =>
      "invalid emergency team address " ++ data.emergencyTeam ++ ": " ++ err
  (validateGenesisStateValidators data.validators).mapError fun err =>
    "failed to validate genesis validators: " ++ err
  (validateGenesisStatePrivilegeAssignments data.privilegeAssignments).mapError fun err =>
    "failed to validate genesis privilege assignments: " ++ err
  data.params.validate

/-! ## `InitGenesis` -/

/-- `GetOperator()` and `GetConsPubKey()` of a genesis validator, which panic on a string that
does not decode. -/
def GenesisValidator.toValidator (validator : GenesisValidator) : Except GoError Validator := do
  let operator ← (c.valAddressFromBech32 validator.operatorBech32).mapError .panic
  let consPubKey ← (c.consPubKeyFromBech32 validator.consPubKeyBech32).mapError .panic
  pure ⟨operator, consPubKey⟩

/-- The loop of `InitGenesis` over the validators: each is stored `Active` and handed to
CometBFT with power 1. -/
def initGenesisValidators :
    List GenesisValidator → List ValidatorUpdate → PoaM (List ValidatorUpdate)
  | [], res => pure res
  | genesisValidator :: rest, res => do
    let validator ← fromExcept (genesisValidator.toValidator c)
    setValidator validator
    setValidatorByConsAddr c validator
    setValidatorState validator .active
    initGenesisValidators rest (res ++ [⟨validator.consPubKey, 1⟩])

/-- The message of a wrapped failure, `errorsmod.Wrapf(err, context)`. -/
def wrapPanic (context : String) : GoError → GoError
  | .error msg => .panic (context ++ ": " ++ msg)
  | .panic msg => .panic (context ++ ": " ++ msg)

/-- The loop of `InitGenesis` over the privilege assignments, each granted by the owner. -/
def initGenesisPrivileges : List ValidatorPrivilegeAssignment → PoaM Unit
  | [] => pure ()
  | assignment :: rest => do
    let operator ← fromExcept ((c.valAddressFromBech32 assignment.operatorBech32).mapError
      fun err => .panic ("error converting operator " ++ assignment.operatorBech32 ++
        " to sdk.ValAddress: " ++ err))
    tryCatch (addPrivilege c (← get).owner [operator] assignment.privilege) fun err =>
      throw (wrapPanic ("error adding privilege " ++ assignment.privilege ++ " for operator " ++
        assignment.operatorBech32) err)
    initGenesisPrivileges rest

/-- `InitGenesis`: the parameters, the owner, the validators and the privileges; it returns
CometBFT's first validator set. -/
def initGenesis (data : GenesisState) : PoaM (List ValidatorUpdate) := do
  modify fun s => { s with params := data.params }
  let owner ← fromExcept ((c.accAddressFromBech32 data.owner).mapError .panic)
  modify fun s => { s with owner := owner }
  let res ← initGenesisValidators c data.validators []
  initGenesisPrivileges c data.privilegeAssignments
  pure res

/-! ## The calls -/

/-- A call on x/poa: a message of the validator-pool precompile, with its sender, or a block
hook. -/
inductive PoaCall where
  | submitApplication (sender : Bytes) (validator : Validator)
  | approveApplication (sender operator : Bytes)
  | cleanupApplications (sender : Bytes)
  | kick (sender operator : Bytes)
  | leave (sender : Bytes)
  | addPrivilege (sender : Bytes) (operators : List Bytes) (privilege : String)
  | removePrivilege (sender : Bytes) (operators : List Bytes) (privilege : String)
  | transferOwnership (sender newOwner : Bytes)
  | acceptOwnership (sender : Bytes)
  | updateParams (sender : Bytes) (params : Params)
  | beginBlocker (height : Int64)
  | endBlocker
  deriving DecidableEq, Repr

/-- A call run on the store; only `EndBlocker` hands CometBFT updates. -/
def PoaCall.run : PoaCall → PoaM (List ValidatorUpdate)
  | .submitApplication sender validator => do Poa.submitApplication c sender validator; pure []
  | .approveApplication sender operator => do Poa.approveApplication c sender operator; pure []
  | .cleanupApplications sender => do Poa.cleanupApplications c sender; pure []
  | .kick sender operator => do Poa.kick c sender operator; pure []
  | .leave sender => do Poa.leave sender; pure []
  | .addPrivilege sender operators privilege => do
    Poa.addPrivilege c sender operators privilege; pure []
  | .removePrivilege sender operators privilege => do
    Poa.removePrivilege c sender operators privilege; pure []
  | .transferOwnership sender newOwner => do Poa.transferOwnership c sender newOwner; pure []
  | .acceptOwnership sender => do Poa.acceptOwnership c sender; pure []
  | .updateParams sender params => do Poa.updateParams c sender params; pure []
  | .beginBlocker height => do Poa.beginBlocker height; pure []
  | .endBlocker => Poa.endBlocker c

end Poa
end Mezod
