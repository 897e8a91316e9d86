import Mezod.Lib.Hex
import Mezod.Poa.Module
import Mezod.Poa.Spec

/-! # The transaction lockdown (`app/ante/evm/tx_lockdown.go`, `precompile/maintenance`)

While `TxLockdownEnabled` is set in the EVM parameters, the ante decorator rejects every
Ethereum transaction that the lockdown rule does not pass. The rule passes a transaction from or
to a role holder, the x/poa owner or the emergency team, read at check time. It also passes one
that the extra allowlists admit, where an empty list admits every address but two empty lists
admit none. The owner and the team switch the lockdown and replace the lists through the
maintenance precompile. `SetParams` validates the lists, and switching the lockdown off clears
them.

The lists are stored as hex text. The decorator reads them back with `HexToAddress`, and the
precompile writes them with `Hex()`, so what it writes reads back as it was given
(`txLockdownAddresses_txLockdownHexAddresses`). The EVM parameters other than the lockdown's are
a type `ρ`, with the checks `Validate` makes of them. The emergency team is kept beside the
x/poa store, under its own key. -/

namespace Mezod
namespace Lockdown
open Go EStateM Eth

/-- `common.Address{}`. -/
def zeroAddress : Bytes := List.replicate 20 0

/-- `MaxTxLockdownAddresses`. -/
def maxTxLockdownAddresses : Nat := 256

/-- The EVM parameters: the lockdown's, and the others of type `ρ`. -/
structure Params (ρ : Type) where
  rest : ρ
  txLockdownEnabled : Bool
  txLockdownSenders : List String
  txLockdownTargets : List String
  deriving DecidableEq, Repr

/-- The checks `Validate` makes of the other parameters, before and after the lockdown lists. -/
structure OtherChecks (ρ : Type) where
  beforeLockdown : ρ → Except String Unit
  afterLockdown : ρ → Except String Unit

/-- A message of a transaction: an Ethereum transaction, with its `From` bytes and its unpacked
target (none for a contract creation), or another message, by its type name. -/
inductive TxMsg where
  | ethereumTx (fromAddr : Bytes) (txData : Except String (Option Bytes))
  | other (typeName : String)
  deriving DecidableEq, Repr

variable {ρ : Type} (keccak : List UInt8 → List UInt8)

/-! ## The parameters -/

/-- The loop of `validateTxLockdownAddresses`, with the normalized addresses seen. -/
def validateTxLockdownAddressesLoop (name : String) (seen : List String) (i : Nat) :
    List String → Except String Unit
  | [] => .ok ()
  | address :: rest =>
    if address.isEmpty then .error (name ++ " " ++ toString i ++ " cannot be empty")
    else if !isHexAddress address then
      .error (name ++ " " ++ toString i ++ " must be a valid hex-encoded EVM address")
    else if hexToAddress address = zeroAddress then
      .error (name ++ " " ++ toString i ++ " cannot be the zero EVM address")
    else
      let normalized := bytesToHexAddress keccak (hexToAddress address)
      if normalized ∈ seen then
        .error (name ++ " " ++ toString i ++ " is a duplicate: " ++ address)
      else validateTxLockdownAddressesLoop name (normalized :: seen) (i + 1) rest

/-- `validateTxLockdownAddresses`. -/
def validateTxLockdownAddresses (name : String) (addresses : List String) :
    Except String Unit :=
  if addresses.length > maxTxLockdownAddresses then
    .error (name ++ " list holds " ++ toString addresses.length ++ " entries, the maximum is " ++
      toString maxTxLockdownAddresses)
  else validateTxLockdownAddressesLoop keccak name [] 0 addresses

/-- `Validate`. -/
def Params.validate (v : OtherChecks ρ) (p : Params ρ) : Except String Unit := do
  v.beforeLockdown p.rest
  validateTxLockdownAddresses keccak "tx lockdown sender" p.txLockdownSenders
  validateTxLockdownAddresses keccak "tx lockdown target" p.txLockdownTargets
  v.afterLockdown p.rest

/-- `txLockdownAddresses`: the stored lists as addresses. -/
def txLockdownAddresses (hexAddresses : List String) : List Bytes :=
  hexAddresses.map fun hexAddress => bytesToAddress (hexToAddress hexAddress)

/-- `txLockdownHexAddresses`: addresses as the stored lists. -/
def txLockdownHexAddresses (addresses : List Bytes) : List String :=
  addresses.map fun address => bytesToHexAddress keccak address

/-! ## The ante decorator -/

/-- The role holders: the owner, and the emergency team unless it is the zero address. -/
def lockdownRoles (owner team : Bytes) : List Bytes :=
  [bytesToAddress owner] ++
    if bytesToAddress team ≠ zeroAddress then [bytesToAddress team] else []

/-- `TxLockdownAllowed`. -/
def txLockdownAllowed (sender : Bytes) (target : Option Bytes)
    (roles extraSenders extraTargets : List Bytes) : Bool :=
  if roles.contains sender then true
  else if target.any roles.contains then true
  -- two empty lists leave the extra clause inactive
  else if extraSenders.isEmpty && extraTargets.isEmpty then false
  else
    let senderAllowed := extraSenders.isEmpty || extraSenders.contains sender
    let targetAllowed := extraTargets.isEmpty || target.any extraTargets.contains
    senderAllowed && targetAllowed

/-- The loop of `AnteHandle` over the messages, with the index of each. -/
def checkMsgs (roles extraSenders extraTargets : List Bytes) (i : Nat) :
    List TxMsg → Except GoError Unit
  | [] => .ok ()
  | .other typeName :: _ =>
    .error (.error ("invalid message type " ++ typeName ++
      ", expected *types.MsgEthereumTx: unknown request"))
  | .ethereumTx fromAddr txData :: rest =>
    match txData with
    | .error err =>
      .error (.error ("failed to unpack tx data any for tx " ++ toString i ++ ": " ++ err))
    | .ok target =>
      let sender := bytesToAddress fromAddr
      if txLockdownAllowed sender target roles extraSenders extraTargets then
        checkMsgs roles extraSenders extraTargets (i + 1) rest
      else
        let targetForLog := match target with
          | some target => bytesToHexAddress keccak target
          | none => "nil (contract creation)"
        .error (.error ("transaction from " ++ bytesToHexAddress keccak sender ++ " to " ++
          targetForLog ++ " rejected by the transaction lockdown: unauthorized"))

/-- What `AnteHandle` checks before it calls the next decorator, with the parameters, the owner
and the emergency team. -/
def ethTxLockdownCheck (params : Params ρ) (owner team : Bytes) (msgs : List TxMsg) :
    Except GoError Unit :=
  if !params.txLockdownEnabled then .ok ()
  else
    checkMsgs keccak (lockdownRoles owner team) (txLockdownAddresses params.txLockdownSenders)
      (txLockdownAddresses params.txLockdownTargets) 0 msgs

/-- The chain's store as the lockdown reads and writes it: x/poa's, the emergency team, and the
EVM parameters. -/
structure LockdownStore (ρ : Type) where
  poa : Poa.PoaStore
  emergencyTeam : Bytes
  evmParams : Params ρ

/-- `AnteHandle`, in front of the rest of the ante chain `next`. -/
def ethTxLockdownAnteHandle {α : Type} (msgs : List TxMsg)
    (next : EStateM GoError (LockdownStore ρ) α) : EStateM GoError (LockdownStore ρ) α := do
  let s ← get
  fromExcept (ethTxLockdownCheck keccak s.evmParams s.poa.owner s.emergencyTeam msgs)
  next

/-! ## The maintenance precompile -/

section calls
variable (c : Poa.PoaCodec) (v : OtherChecks ρ)

/-- `CheckOwnerOrEmergencyTeam`. -/
def checkOwnerOrEmergencyTeam (s : LockdownStore ρ) (sender : Bytes) : Except GoError Unit :=
  match Poa.checkOwner c s.poa sender with
  | .ok () => .ok ()
  | .error _ => Poa.checkAccount c sender s.emergencyTeam "emergency team"

/-- What `SetEmergencyTeamUnchecked` stores: nothing for an empty or zero address. -/
def emergencyTeamUnchecked (emergencyTeam : Bytes) : Bytes :=
  if emergencyTeam.isEmpty ∨ emergencyTeam = List.replicate 20 0 then [] else emergencyTeam

/-- `SetEmergencyTeam`. -/
def setEmergencyTeam (sender emergencyTeam : Bytes) : EStateM GoError (LockdownStore ρ) Unit := do
  let s ← get
  fromExcept (Poa.checkOwner c s.poa sender)
  set { s with emergencyTeam := emergencyTeamUnchecked emergencyTeam }

/-- The EVM keeper's `SetParams`, which validates. -/
def setParams (params : Params ρ) : EStateM GoError (LockdownStore ρ) Unit := do
  fromExcept ((params.validate keccak v).mapError .error)
  modify fun s => { s with evmParams := params }

/-- `setTxLockdownMethod.Run`, for the caller `caller`. -/
def setTxLockdown (caller : Bytes) (enabled : Bool) : EStateM GoError (LockdownStore ρ) Unit := do
  let s ← get
  fromExcept (checkOwnerOrEmergencyTeam c s caller)
  let params := { s.evmParams with txLockdownEnabled := enabled }
  -- disabling the lockdown clears both lists
  let params := if enabled then params
    else { params with txLockdownSenders := [], txLockdownTargets := [] }
  setParams keccak v params

/-- `setTxLockdownAllowlistMethod.Run`: both lists are replaced. -/
def setTxLockdownAllowlist (caller : Bytes) (senders targets : List Bytes) :
    EStateM GoError (LockdownStore ρ) Unit := do
  let s ← get
  fromExcept (checkOwnerOrEmergencyTeam c s caller)
  setParams keccak v { s.evmParams with
    txLockdownSenders := txLockdownHexAddresses keccak senders
    txLockdownTargets := txLockdownHexAddresses keccak targets }

/-- A call of x/poa, on its part of the store. -/
def liftPoa {α : Type} (x : Poa.PoaM α) : EStateM GoError (LockdownStore ρ) α := fun s =>
  match x.run s.poa with
  | .ok a poa => .ok a { s with poa := poa }
  | .error e poa => .error e { s with poa := poa }

/-- A call that writes what the lockdown reads: a maintenance method, any other write of the EVM
parameters, which all go through `SetParams`, or a call of x/poa. -/
inductive LockdownCall (ρ : Type) where
  | setTxLockdown (caller : Bytes) (enabled : Bool)
  | setTxLockdownAllowlist (caller : Bytes) (senders targets : List Bytes)
  | setEmergencyTeam (caller emergencyTeam : Bytes)
  | setParams (params : Params ρ)
  | poa (call : Poa.PoaCall)

/-- A call run on the store. -/
def LockdownCall.run : LockdownCall ρ → EStateM GoError (LockdownStore ρ) Unit
  | .setTxLockdown caller enabled => Lockdown.setTxLockdown keccak c v caller enabled
  | .setTxLockdownAllowlist caller senders targets =>
    Lockdown.setTxLockdownAllowlist keccak c v caller senders targets
  | .setEmergencyTeam caller emergencyTeam => Lockdown.setEmergencyTeam c caller emergencyTeam
  | .setParams params => Lockdown.setParams keccak v params
  | .poa call => do let _ ← liftPoa (call.run c); pure ()

/-- The stores the chain reaches: a genesis with EVM parameters that `SetParams` accepted and the
emergency team that `SetEmergencyTeamUnchecked` stored, and then any calls, each committed or
reverted. -/
inductive Reachable : LockdownStore ρ → Prop
  | genesis (poa : Poa.PoaStore) (emergencyTeam : Bytes) (params : Params ρ) :
    params.validate keccak v = .ok () →
      Reachable ⟨poa, emergencyTeamUnchecked emergencyTeam, params⟩
  | step {s : LockdownStore ρ} (call : LockdownCall ρ) :
    Reachable s → Reachable (commit (call.run keccak c v) s)

end calls

/-! ## The rule -/

/-- The emergency team as a role: unset when it is the zero address. -/
def teamOf (team : Bytes) : Option Bytes :=
  if bytesToAddress team = zeroAddress then none else some (bytesToAddress team)

/-- The lockdown rule as documented, over the owner `O`, the emergency team `T` if set, and the
extra allowlists `S` and `G`: a transaction from `s` to `t` (none for a contract creation) passes
when it is from or to a role holder, or when the lists are not both empty and each admits it. -/
def LockdownRule (O : Bytes) (T : Option Bytes) (S G : List Bytes) (s : Bytes)
    (t : Option Bytes) : Prop :=
  s = O ∨ T = some s ∨ (∃ a, t = some a ∧ (a = O ∨ T = some a)) ∨
    ((S ≠ [] ∨ G ≠ []) ∧ (S = [] ∨ s ∈ S) ∧ (G = [] ∨ ∃ a, t = some a ∧ a ∈ G))

theorem mem_lockdownRoles {owner team a : Bytes} :
    a ∈ lockdownRoles owner team ↔ a = bytesToAddress owner ∨ teamOf team = some a := by
  unfold lockdownRoles teamOf
  by_cases h : bytesToAddress team = zeroAddress
  · simp [h]
  · simp [h, eq_comm]

theorem txLockdownAllowed_iff {sender owner team : Bytes} {target : Option Bytes}
    {S G : List Bytes} :
    txLockdownAllowed sender target (lockdownRoles owner team) S G = true ↔
      LockdownRule (bytesToAddress owner) (teamOf team) S G sender target := by
  have hroles : ∀ a, (lockdownRoles owner team).contains a = true ↔
      a = bytesToAddress owner ∨ teamOf team = some a := fun a => by
    rw [List.contains_iff_mem, mem_lockdownRoles]
  unfold txLockdownAllowed LockdownRule
  by_cases hs : sender = bytesToAddress owner ∨ teamOf team = some sender
  · -- from a role holder
    have hc : (lockdownRoles owner team).contains sender = true := (hroles sender).2 hs
    simp only [hc, if_true, true_iff]
    rcases hs with hs | hs
    · exact .inl hs
    · exact .inr (.inl hs)
  have hc : (lockdownRoles owner team).contains sender = false := by
    simpa [Bool.eq_false_iff] using mt (hroles sender).1 hs
  cases target with
  | none => simp_all [List.isEmpty_iff]
  | some t =>
    by_cases ht : t = bytesToAddress owner ∨ teamOf team = some t
    · -- to a role holder
      have hct : (lockdownRoles owner team).contains t = true := (hroles t).2 ht
      simp only [hc, hct, Option.any_some, if_true, Bool.false_eq_true, if_false, true_iff]
      exact .inr (.inr (.inl ⟨t, rfl, ht⟩))
    · simp_all [List.isEmpty_iff]

theorem ethTxLockdownCheck_single {params : Params ρ} {owner team fromAddr : Bytes}
    {target : Option Bytes} :
    ethTxLockdownCheck keccak params owner team [.ethereumTx fromAddr (.ok target)] = .ok () ↔
      params.txLockdownEnabled = false ∨
        LockdownRule (bytesToAddress owner) (teamOf team) (txLockdownAddresses params.txLockdownSenders)
          (txLockdownAddresses params.txLockdownTargets) (bytesToAddress fromAddr) target := by
  unfold ethTxLockdownCheck
  cases hen : params.txLockdownEnabled with
  | false => simp
  | true =>
    simp only [Bool.not_true, Bool.false_eq_true, if_false, ← txLockdownAllowed_iff]
    simp only [checkMsgs]
    split <;> simp_all

theorem run_ethTxLockdownAnteHandle {α : Type} (msgs : List TxMsg)
    (next : EStateM GoError (LockdownStore ρ) α) (s : LockdownStore ρ) :
    (ethTxLockdownAnteHandle keccak msgs next).run s =
      match ethTxLockdownCheck keccak s.evmParams s.poa.owner s.emergencyTeam msgs with
      | .ok () => next.run s
      | .error e => .error e s := by
  unfold ethTxLockdownAnteHandle
  rw [run_get_bind]
  cases ethTxLockdownCheck keccak s.evmParams s.poa.owner s.emergencyTeam msgs <;> rfl

theorem txLockdownAddresses_txLockdownHexAddresses {addresses : List Bytes}
    (h : ∀ a ∈ addresses, a.length = 20) :
    txLockdownAddresses (txLockdownHexAddresses keccak addresses) = addresses := by
  unfold txLockdownAddresses txLockdownHexAddresses
  rw [List.map_map]
  conv_rhs => rw [← List.map_id addresses]
  refine List.map_congr_left fun a ha => ?_
  simp only [Function.comp_apply, hexToAddress_bytesToHexAddress, bytesToAddress_of_length (h a ha),
    id]

/-! ## What the precompile's calls do -/

section calls
variable {keccak} {c : Poa.PoaCodec} {v : OtherChecks ρ} {s s' : LockdownStore ρ}

theorem setParams_eq_ok {params : Params ρ} (h : (setParams keccak v params).run s = .ok () s') :
    params.validate keccak v = .ok () ∧ s' = { s with evmParams := params } := by
  obtain ⟨u, hv, hrun⟩ := fromExcept_bind_eq_ok h
  refine ⟨?_, ?_⟩
  · cases hval : params.validate keccak v with
    | error e => rw [hval] at hv; cases hv
    | ok a => rfl
  · cases hrun
    rfl

theorem checkOwnerOrEmergencyTeam_eq_ok (hinj : Function.Injective c.accString) {caller : Bytes}
    (h : checkOwnerOrEmergencyTeam c s caller = .ok ()) :
    caller ≠ [] ∧ (caller = s.poa.owner ∨ caller = s.emergencyTeam) := by
  unfold checkOwnerOrEmergencyTeam at h
  split at h
  · rename_i howner
    obtain ⟨hne, -, heq⟩ := Poa.checkAccount_eq_ok howner
    exact ⟨hne, .inl (hinj heq).symm⟩
  · obtain ⟨hne, -, heq⟩ := Poa.checkAccount_eq_ok h
    exact ⟨hne, .inr (hinj heq).symm⟩

theorem setTxLockdown_eq_ok {caller : Bytes} {enabled : Bool}
    (h : (setTxLockdown keccak c v caller enabled).run s = .ok () s') :
    checkOwnerOrEmergencyTeam c s caller = .ok () ∧ ∃ params : Params ρ,
      s' = { s with evmParams := params } ∧ params.validate keccak v = .ok () ∧
      params.txLockdownEnabled = enabled ∧
      (enabled = false → params.txLockdownSenders = [] ∧ params.txLockdownTargets = []) := by
  rw [setTxLockdown, run_get_bind] at h
  obtain ⟨u, hcheck, hrun⟩ := fromExcept_bind_eq_ok h
  obtain ⟨hv, rfl⟩ := setParams_eq_ok hrun
  refine ⟨hcheck, _, rfl, hv, ?_, ?_⟩
  · cases enabled <;> rfl
  · intro hen
    subst hen
    exact ⟨rfl, rfl⟩

theorem setTxLockdownAllowlist_eq_ok {caller : Bytes} {senders targets : List Bytes}
    (h : (setTxLockdownAllowlist keccak c v caller senders targets).run s = .ok () s') :
    checkOwnerOrEmergencyTeam c s caller = .ok () ∧ ∃ params : Params ρ,
      s' = { s with evmParams := params } ∧ params.validate keccak v = .ok () ∧
      params.txLockdownSenders = txLockdownHexAddresses keccak senders ∧
      params.txLockdownTargets = txLockdownHexAddresses keccak targets := by
  rw [setTxLockdownAllowlist, run_get_bind] at h
  obtain ⟨u, hcheck, hrun⟩ := fromExcept_bind_eq_ok h
  obtain ⟨hv, rfl⟩ := setParams_eq_ok hrun
  exact ⟨hcheck, _, rfl, hv, rfl, rfl⟩

theorem setEmergencyTeam_eq_ok {caller emergencyTeam : Bytes}
    (h : (setEmergencyTeam c caller emergencyTeam).run s = .ok () s') :
    s' = { s with emergencyTeam := emergencyTeamUnchecked emergencyTeam } := by
  rw [setEmergencyTeam, run_get_bind] at h
  obtain ⟨u, -, hrun⟩ := fromExcept_bind_eq_ok h
  cases hrun
  rfl

theorem liftPoa_eq_ok {α : Type} {x : Poa.PoaM α} {a : α} (h : (liftPoa x).run s = .ok a s') :
    s'.emergencyTeam = s.emergencyTeam ∧ s'.evmParams = s.evmParams := by
  unfold liftPoa at h
  change (match x.run s.poa with
    | .ok a poa => Result.ok a { s with poa := poa }
    | .error e poa => .error e { s with poa := poa }) = _ at h
  split at h
  · cases h
    exact ⟨rfl, rfl⟩
  · cases h

theorem emergencyTeamUnchecked_ne_zero (emergencyTeam : Bytes) :
    emergencyTeamUnchecked emergencyTeam ≠ zeroAddress := by
  unfold emergencyTeamUnchecked zeroAddress
  split
  · simp
  · rename_i h
    exact fun heq => h (.inr heq)

theorem setTxLockdownAllowlist_reads {caller : Bytes} {senders targets : List Bytes}
    (hs : ∀ a ∈ senders, a.length = 20) (ht : ∀ a ∈ targets, a.length = 20)
    (h : (setTxLockdownAllowlist keccak c v caller senders targets).run s = .ok () s') :
    txLockdownAddresses s'.evmParams.txLockdownSenders = senders ∧
      txLockdownAddresses s'.evmParams.txLockdownTargets = targets := by
  obtain ⟨-, params, rfl, -, hsenders, htargets⟩ := setTxLockdownAllowlist_eq_ok h
  exact ⟨by rw [hsenders, txLockdownAddresses_txLockdownHexAddresses keccak hs],
    by rw [htargets, txLockdownAddresses_txLockdownHexAddresses keccak ht]⟩

/-! ## Reachable stores -/

/-- What every reachable store keeps: EVM parameters that pass `Validate`, and no emergency team
stored as the zero address. -/
structure LockdownInv (keccak : List UInt8 → List UInt8) (v : OtherChecks ρ)
    (s : LockdownStore ρ) : Prop where
  params_valid : s.evmParams.validate keccak v = .ok ()
  team_ne_zero : s.emergencyTeam ≠ zeroAddress

theorem LockdownInv.commit_run (h : LockdownInv keccak v s) (call : LockdownCall ρ) :
    LockdownInv keccak v (commit (call.run keccak c v) s) := by
  refine commit_cases (fun u s' hrun => ?_) h
  cases call with
  | setTxLockdown caller enabled =>
    obtain ⟨-, params, rfl, hv, -⟩ := setTxLockdown_eq_ok hrun
    exact ⟨hv, h.team_ne_zero⟩
  | setTxLockdownAllowlist caller senders targets =>
    obtain ⟨-, params, rfl, hv, -⟩ := setTxLockdownAllowlist_eq_ok hrun
    exact ⟨hv, h.team_ne_zero⟩
  | setEmergencyTeam caller emergencyTeam =>
    rw [setEmergencyTeam_eq_ok hrun]
    exact ⟨h.params_valid, emergencyTeamUnchecked_ne_zero emergencyTeam⟩
  | setParams params =>
    obtain ⟨hv, rfl⟩ := setParams_eq_ok hrun
    exact ⟨hv, h.team_ne_zero⟩
  | poa call =>
    obtain ⟨b, hlift⟩ := bind_pure_eq_ok hrun
    obtain ⟨hteam, hparams⟩ := liftPoa_eq_ok hlift
    exact ⟨hparams ▸ h.params_valid, hteam ▸ h.team_ne_zero⟩

theorem Reachable.lockdownInv (h : Reachable keccak c v s) : LockdownInv keccak v s := by
  induction h with
  | genesis poa emergencyTeam params hv => exact ⟨hv, emergencyTeamUnchecked_ne_zero emergencyTeam⟩
  | step call _ ih => exact ih.commit_run call

/-- In a reachable store, a caller that the check passes holds a role of the lockdown rule. -/
theorem role_of_checkOwnerOrEmergencyTeam (hinj : Function.Injective c.accString)
    (hs : LockdownInv keccak v s) {caller : Bytes} (hlen : caller.length = 20)
    (h : checkOwnerOrEmergencyTeam c s caller = .ok ()) :
    caller = bytesToAddress s.poa.owner ∨ teamOf s.emergencyTeam = some caller := by
  obtain ⟨-, rfl | rfl⟩ := checkOwnerOrEmergencyTeam_eq_ok hinj h
  · exact .inl (bytesToAddress_of_length hlen).symm
  · right
    have hteam : bytesToAddress s.emergencyTeam = s.emergencyTeam := bytesToAddress_of_length hlen
    simp only [teamOf, hteam, if_neg hs.team_ne_zero]

end calls

theorem latin1_injective :
    Function.Injective fun b : Bytes => String.ofList (b.map fun x => Char.ofNat x.toNat) := by
  intro a b h
  have hchars := congrArg String.toList h
  simp only [String.toList_ofList] at hchars
  refine List.map_injective_iff.2 ?_ hchars
  intro x y hxy
  have hvalid : ∀ z : UInt8, z.toNat.isValidChar := fun z => Or.inl (by have := z.toNat_lt; omega)
  have hnat := congrArg Char.toNat hxy
  rw [Char.toNat_ofNat, Char.toNat_ofNat, if_pos (hvalid x), if_pos (hvalid y)] at hnat
  exact UInt8.toNat_inj.1 hnat

end Lockdown
end Mezod
