import Mezod.Poa.Spec
import Mezod.Poa.Module

/-! # The invariant of the validator pool's store

`PoaInv` is what x/poa keeps true of its store from a genesis whose validators decode apart:
the records of validators and of applications are ordered maps under operator addresses that are
not empty, the two consensus-address indexes are exact inverses of them, every validator is
`Joining`, `Active` or `Leaving`, no operator and no consensus address is both a validator's and
an application's, and a privilege lists, in increasing order, consensus addresses of validators.
Each write of the keeper has a lemma saying what it needs to keep the invariant; each call is
then one of them or a short sequence, and `EndBlocker` is a loop of them over its snapshot. -/

namespace Mezod
namespace Poa
open Go EStateM OrderedMap

/-- What x/poa keeps true of its store. -/
structure PoaInv (c : PoaCodec) (s : PoaStore) : Prop where
  validators_sorted : Sorted s.validators
  validator_keyed : ∀ p ∈ s.validators, p.2.operator = p.1
  validator_operator : ∀ p ∈ s.validators, p.1 ≠ []
  validator_state : ∀ p ∈ s.validators,
    ∃ state, s.validatorState p.1 = some state ∧ state ≠ .unknown
  validatorByConsAddr : IsIndex (getConsAddress c) s.validators s.validatorByConsAddr
  applications_sorted : Sorted s.applications
  application_keyed : ∀ p ∈ s.applications, p.2.validator.operator = p.1
  application_operator : ∀ p ∈ s.applications, p.1 ≠ []
  applicationByConsAddr :
    IsIndex (fun a => getConsAddress c a.validator) s.applications s.applicationByConsAddr
  operator_apart : ∀ p ∈ s.validators, ∀ q ∈ s.applications, p.1 ≠ q.1
  cons_apart : ∀ p ∈ s.validators, ∀ q ∈ s.applications,
    getConsAddress c p.2 ≠ getConsAddress c q.2.validator
  privileges_sorted : Sorted s.validatorsByPrivilege
  privilege_sorted : ∀ q ∈ s.validatorsByPrivilege, q.2.Pairwise (· < ·)
  privilege_validator : ∀ q ∈ s.validatorsByPrivilege, ∀ x ∈ q.2,
    ∃ p ∈ s.validators, getConsAddress c p.2 = x

theorem poaInv_empty (c : PoaCodec) : PoaInv c PoaStore.empty where
  validators_sorted := List.Pairwise.nil
  validator_keyed _ h := nomatch h
  validator_operator _ h := nomatch h
  validator_state _ h := nomatch h
  validatorByConsAddr := isIndex_nil
  applications_sorted := List.Pairwise.nil
  application_keyed _ h := nomatch h
  application_operator _ h := nomatch h
  applicationByConsAddr := isIndex_nil
  operator_apart _ h := nomatch h
  cons_apart _ h := nomatch h
  privileges_sorted := List.Pairwise.nil
  privilege_sorted _ h := nomatch h
  privilege_validator _ h := nomatch h

namespace PoaInv
variable {c : PoaCodec} {s : PoaStore}

/-! ## Reads -/

theorem getValidator_eq_some (h : PoaInv c s) {operator : Bytes} {v : Validator} :
    s.getValidator operator = some v ↔ (operator, v) ∈ s.validators :=
  lookup_eq_some_iff h.validators_sorted

theorem getApplication_eq_some (h : PoaInv c s) {operator : Bytes} {a : Application} :
    s.getApplication operator = some a ↔ (operator, a) ∈ s.applications :=
  lookup_eq_some_iff h.applications_sorted

theorem getValidatorByConsAddr_eq_none (h : PoaInv c s) {cons : Bytes} :
    s.getValidatorByConsAddr cons = none ↔ ∀ p ∈ s.validators, getConsAddress c p.2 ≠ cons := by
  rw [← h.validatorByConsAddr.eq_none_iff]
  unfold PoaStore.getValidatorByConsAddr
  cases hidx : s.validatorByConsAddr cons with
  | none => simp
  | some operator =>
    -- the index names a validator, whose operator is not empty
    obtain ⟨v, hv, -⟩ := (h.validatorByConsAddr cons operator).1 hidx
    have hne : operator.isEmpty = false :=
      Bool.eq_false_iff.2 fun he => h.validator_operator _ hv (List.isEmpty_iff.1 he)
    simp [hne, h.getValidator_eq_some.2 hv]

theorem getApplicationByConsAddr_eq_none (h : PoaInv c s) {cons : Bytes} :
    s.getApplicationByConsAddr cons = none ↔
      ∀ p ∈ s.applications, getConsAddress c p.2.validator ≠ cons := by
  rw [← h.applicationByConsAddr.eq_none_iff]
  unfold PoaStore.getApplicationByConsAddr
  cases hidx : s.applicationByConsAddr cons with
  | none => simp
  | some operator =>
    obtain ⟨a, ha, -⟩ := (h.applicationByConsAddr cons operator).1 hidx
    have hne : operator.isEmpty = false :=
      Bool.eq_false_iff.2 fun he => h.application_operator _ ha (List.isEmpty_iff.1 he)
    simp [hne, h.getApplication_eq_some.2 ha]

theorem validator_cons_injective (h : PoaInv c s) {p q : Bytes × Validator}
    (hp : p ∈ s.validators) (hq : q ∈ s.validators)
    (hcons : getConsAddress c p.2 = getConsAddress c q.2) : p = q :=
  h.validatorByConsAddr.injective h.validators_sorted hp hq hcons

/-! ## Writes

One lemma for each write of the keeper, with what the write needs of the store. -/

theorem frame (h : PoaInv c s) (params : Params) (owner candidateOwner : Bytes)
    (historicalInfo : Int64 → Option (List Validator)) :
    PoaInv c { s with params, owner, candidateOwner, historicalInfo } :=
  ⟨h.1, h.2, h.3, h.4, h.5, h.6, h.7, h.8, h.9, h.10, h.11, h.12, h.13, h.14⟩

theorem setValidatorState (h : PoaInv c s) (operator : Bytes) {state : ValidatorState}
    (hstate : state ≠ .unknown) :
    PoaInv c { s with
      validatorState := Function.update s.validatorState operator (some state) } := by
  refine { h with validator_state := fun p hp => ?_ }
  dsimp only
  by_cases hp₁ : p.1 = operator
  · exact ⟨state, by rw [hp₁, Function.update_self], hstate⟩
  · rw [Function.update_of_ne hp₁]
    exact h.validator_state p hp

theorem setPrivilege (h : PoaInv c s) (privilege : String) {l : List Bytes}
    (hl : ∀ x ∈ l, ∃ p ∈ s.validators, getConsAddress c p.2 = x) :
    PoaInv c { s with
      validatorsByPrivilege := OrderedMap.insert privilege (compactFunc (· == ·) (sortFunc l))
        s.validatorsByPrivilege } := by
  refine { h with
    privileges_sorted := sorted_insert h.privileges_sorted
    privilege_sorted := fun q hq => ?_
    privilege_validator := fun q hq x hx => ?_ }
  · rcases (mem_insert h.privileges_sorted).1 hq with rfl | ⟨hq, -⟩
    · exact pairwise_lt_compactFunc (pairwise_sortFunc l)
    · exact h.privilege_sorted q hq
  · rcases (mem_insert h.privileges_sorted).1 hq with rfl | ⟨hq, -⟩
    · exact hl x (by simpa using hx)
    · exact h.privilege_validator q hq x hx

theorem createApplication (h : PoaInv c s) {v : Validator} (hop : v.operator ≠ [])
    (hv : ∀ p ∈ s.validators, p.1 ≠ v.operator)
    (hvc : ∀ p ∈ s.validators, getConsAddress c p.2 ≠ getConsAddress c v)
    (ha : ∀ q ∈ s.applications, q.1 ≠ v.operator)
    (hac : ∀ q ∈ s.applications, getConsAddress c q.2.validator ≠ getConsAddress c v) :
    PoaInv c { s with
      applications := OrderedMap.insert v.operator ⟨v⟩ s.applications
      applicationByConsAddr :=
        Function.update s.applicationByConsAddr (getConsAddress c v) (some v.operator) } := by
  have hmem : ∀ {q}, q ∈ OrderedMap.insert v.operator ⟨v⟩ s.applications ↔
      q = (v.operator, ⟨v⟩) ∨ q ∈ s.applications ∧ q.1 ≠ v.operator :=
    mem_insert h.applications_sorted
  refine { h with
    applications_sorted := sorted_insert h.applications_sorted
    application_keyed := fun q hq => ?keyed
    application_operator := fun q hq => ?operator
    applicationByConsAddr := h.applicationByConsAddr.insert h.applications_sorted ha hac
    operator_apart := fun p hp q hq => ?operator_apart
    cons_apart := fun p hp q hq => ?cons_apart }
  -- each field splits on whether the application is the new one
  case keyed =>
    rcases hmem.1 hq with rfl | ⟨hq, -⟩
    · rfl
    · exact h.application_keyed q hq
  case operator =>
    rcases hmem.1 hq with rfl | ⟨hq, -⟩
    · exact hop
    · exact h.application_operator q hq
  case operator_apart =>
    rcases hmem.1 hq with rfl | ⟨hq, -⟩
    · exact hv p hp
    · exact h.operator_apart p hp q hq
  case cons_apart =>
    rcases hmem.1 hq with rfl | ⟨hq, -⟩
    · exact hvc p hp
    · exact h.cons_apart p hp q hq

theorem removeApplication (h : PoaInv c s) {operator : Bytes} {a : Application}
    (hmem : (operator, a) ∈ s.applications) :
    PoaInv c { s with
      applications := OrderedMap.erase operator s.applications
      applicationByConsAddr :=
        Function.update s.applicationByConsAddr (getConsAddress c a.validator) none } where
  __ := h
  applications_sorted := sorted_erase h.applications_sorted
  application_keyed q hq := h.application_keyed q (mem_erase.1 hq).1
  application_operator q hq := h.application_operator q (mem_erase.1 hq).1
  applicationByConsAddr := h.applicationByConsAddr.erase h.applications_sorted hmem
  operator_apart p hp q hq := h.operator_apart p hp q (mem_erase.1 hq).1
  cons_apart p hp q hq := h.cons_apart p hp q (mem_erase.1 hq).1

theorem addValidator (h : PoaInv c s) {v : Validator} {state : ValidatorState}
    (hop : v.operator ≠ []) (hstate : state ≠ .unknown)
    (hv : ∀ p ∈ s.validators, p.1 ≠ v.operator)
    (hvc : ∀ p ∈ s.validators, getConsAddress c p.2 ≠ getConsAddress c v)
    (ha : ∀ q ∈ s.applications, q.1 ≠ v.operator)
    (hac : ∀ q ∈ s.applications, getConsAddress c q.2.validator ≠ getConsAddress c v) :
    PoaInv c { s with
      validators := OrderedMap.insert v.operator v s.validators
      validatorByConsAddr :=
        Function.update s.validatorByConsAddr (getConsAddress c v) (some v.operator)
      validatorState := Function.update s.validatorState v.operator (some state) } := by
  have hmem : ∀ {p}, p ∈ OrderedMap.insert v.operator v s.validators ↔
      p = (v.operator, v) ∨ p ∈ s.validators ∧ p.1 ≠ v.operator :=
    mem_insert h.validators_sorted
  refine { h with
    validators_sorted := sorted_insert h.validators_sorted
    validator_keyed := fun p hp => ?keyed
    validator_operator := fun p hp => ?operator
    validator_state := fun p hp => ?state
    validatorByConsAddr := h.validatorByConsAddr.insert h.validators_sorted hv hvc
    operator_apart := fun p hp q hq => ?operator_apart
    cons_apart := fun p hp q hq => ?cons_apart
    privilege_validator := fun q hq x hx => ?privilege }
  -- each field splits on whether the validator is the new one
  case keyed =>
    rcases hmem.1 hp with rfl | ⟨hp, -⟩
    · rfl
    · exact h.validator_keyed p hp
  case operator =>
    rcases hmem.1 hp with rfl | ⟨hp, -⟩
    · exact hop
    · exact h.validator_operator p hp
  case state =>
    dsimp only
    rcases hmem.1 hp with rfl | ⟨hp, hne⟩
    · exact ⟨state, Function.update_self .., hstate⟩
    · rw [Function.update_of_ne hne]
      exact h.validator_state p hp
  case operator_apart =>
    rcases hmem.1 hp with rfl | ⟨hp, -⟩
    · exact (ha q hq).symm
    · exact h.operator_apart p hp q hq
  case cons_apart =>
    rcases hmem.1 hp with rfl | ⟨hp, -⟩
    · exact (hac q hq).symm
    · exact h.cons_apart p hp q hq
  case privilege =>
    -- the validators the privileges name are still there
    obtain ⟨p, hp, hpx⟩ := h.privilege_validator q hq x hx
    exact ⟨p, hmem.2 (.inr ⟨hp, hv p hp⟩), hpx⟩

theorem removeValidator (h : PoaInv c s) {operator : Bytes} {v : Validator}
    (hmem : (operator, v) ∈ s.validators) :
    PoaInv c { s with
      validatorsByPrivilege :=
        s.validatorsByPrivilege.map fun q => (q.1, q.2.erase (getConsAddress c v))
      validators := OrderedMap.erase operator s.validators
      validatorByConsAddr := Function.update s.validatorByConsAddr (getConsAddress c v) none
      validatorState := Function.update s.validatorState operator none } := by
  refine { h with
    validators_sorted := sorted_erase h.validators_sorted
    validator_keyed := fun p hp => h.validator_keyed p (mem_erase.1 hp).1
    validator_operator := fun p hp => h.validator_operator p (mem_erase.1 hp).1
    validator_state := fun p hp => ?_
    validatorByConsAddr := h.validatorByConsAddr.erase h.validators_sorted hmem
    operator_apart := fun p hp q hq => h.operator_apart p (mem_erase.1 hp).1 q hq
    cons_apart := fun p hp q hq => h.cons_apart p (mem_erase.1 hp).1 q hq
    privileges_sorted := sorted_map h.privileges_sorted fun _ _ => rfl
    privilege_sorted := fun q hq => ?_
    privilege_validator := fun q hq x hx => ?_ }
  · obtain ⟨hp, hne⟩ := mem_erase.1 hp
    dsimp only
    rw [Function.update_of_ne hne]
    exact h.validator_state p hp
  · obtain ⟨q₀, hq₀, rfl⟩ := List.mem_map.1 hq
    exact (h.privilege_sorted q₀ hq₀).sublist List.erase_sublist
  · obtain ⟨q₀, hq₀, rfl⟩ := List.mem_map.1 hq
    -- a listed address other than the removed validator's is another validator's
    have hnodup : q₀.2.Nodup := (h.privilege_sorted q₀ hq₀).imp ne_of_lt
    obtain ⟨hxv, hx⟩ := (hnodup.mem_erase_iff).1 hx
    obtain ⟨p, hp, hpx⟩ := h.privilege_validator q₀ hq₀ x hx
    refine ⟨p, mem_erase.2 ⟨hp, fun hpk => hxv ?_⟩, hpx⟩
    rw [← hpx, eq_of_key_eq h.validators_sorted hp hmem hpk]

/-! ## Reads that do not panic -/

theorem getActiveValidators_eq (h : PoaInv c s) :
    s.getActiveValidators =
      .ok (s.getAllValidators.filter fun v => s.validatorState v.operator = some .active) := by
  refine activeValidators_eq_ok fun v hv => ?_
  obtain ⟨p, hp, rfl⟩ := List.mem_map.1 hv
  obtain ⟨state, hstate, -⟩ := h.validator_state p hp
  rw [h.validator_keyed p hp, hstate]
  exact Option.some_ne_none state

theorem getValidatorByConsAddr_of_mem (h : PoaInv c s) {p : Bytes × Validator}
    (hp : p ∈ s.validators) : s.getValidatorByConsAddr (getConsAddress c p.2) = some p.2 := by
  have hidx := (h.validatorByConsAddr _ p.1).2 ⟨p.2, hp, rfl⟩
  have hne : p.1.isEmpty = false :=
    Bool.eq_false_iff.2 fun he => h.validator_operator _ hp (List.isEmpty_iff.1 he)
  simp [PoaStore.getValidatorByConsAddr, hidx, hne, h.getValidator_eq_some.2 hp]

theorem getValidatorsConsAddrsByPrivilege_validator (h : PoaInv c s) {privilege : String}
    {x : Bytes} (hx : x ∈ s.getValidatorsConsAddrsByPrivilege privilege) :
    ∃ p ∈ s.validators, getConsAddress c p.2 = x := by
  unfold PoaStore.getValidatorsConsAddrsByPrivilege at hx
  cases hl : s.validatorsByPrivilege.lookup privilege with
  | none =>
    rw [hl] at hx
    cases hx
  | some l =>
    rw [hl] at hx
    exact h.privilege_validator _ ((lookup_eq_some_iff h.privileges_sorted).1 hl) x hx

theorem getValidatorsOperatorsByPrivilege_ok (h : PoaInv c s) (privilege : String) :
    ∃ operators, s.getValidatorsOperatorsByPrivilege privilege = .ok operators := by
  refine mapM_eq_ok_of_forall fun x hx => ?_
  obtain ⟨p, hp, rfl⟩ := h.getValidatorsConsAddrsByPrivilege_validator hx
  rw [h.getValidatorByConsAddr_of_mem hp]
  exact ⟨_, rfl⟩

/-! ## Calls -/

variable {s' : PoaStore} {u : Unit}

theorem submitApplication_ok {sender : Bytes} {v : Validator} (h : PoaInv c s)
    (hrun : (submitApplication c sender v).run s = .ok u s') : PoaInv c s' := by
  obtain ⟨hop, -, hv, hvc, ha, hac, rfl⟩ := submitApplication_eq_ok hrun
  -- the four lookups that found nothing say that the operator and the address are new
  exact h.createApplication (checkAccount_eq_ok hop).2.1 (lookup_eq_none_iff.1 hv)
    (h.getValidatorByConsAddr_eq_none.1 hvc) (lookup_eq_none_iff.1 ha)
    (h.getApplicationByConsAddr_eq_none.1 hac)

theorem approveApplication_ok {sender operator : Bytes} (h : PoaInv c s)
    (hrun : (approveApplication c sender operator).run s = .ok u s') : PoaInv c s' := by
  obtain ⟨-, -, a, ha, rfl⟩ := approveApplication_eq_ok hrun
  have hmem := h.getApplication_eq_some.1 ha
  have hkey : a.validator.operator = operator := h.application_keyed _ hmem
  -- the application goes, and its candidate joins under the same operator and address
  have h₁ := h.removeApplication hmem
  refine h₁.addValidator (by rw [hkey]; exact h.application_operator _ hmem) (by decide)
    (fun p hp => ?_) (fun p hp => h.cons_apart p hp _ hmem) (fun q hq => ?_) (fun q hq => ?_)
  · rw [hkey]
    exact h.operator_apart p hp _ hmem
  · rw [hkey]
    exact (mem_erase.1 hq).2
  · obtain ⟨hq, hne⟩ := mem_erase.1 hq
    exact fun hc => hne (congrArg Prod.fst
      (h.applicationByConsAddr.injective h.applications_sorted hq hmem hc))

theorem cleanupApplications_ok {sender : Bytes} (h : PoaInv c s)
    (hrun : (cleanupApplications c sender).run s = .ok u s') : PoaInv c s' := by
  obtain ⟨-, hloop⟩ := cleanupApplications_eq_ok hrun
  rw [run_forM_removeApplication _ s rfl h.applications_sorted h.application_keyed] at hloop
  cases hloop
  refine { h with
    applications_sorted := List.Pairwise.nil
    application_keyed := fun _ hq => nomatch hq
    application_operator := fun _ hq => nomatch hq
    applicationByConsAddr := fun cons operator => ?_
    operator_apart := fun _ _ _ hq => nomatch hq
    cons_apart := fun _ _ _ hq => nomatch hq }
  -- every address the index held was an application's, and has been cleared
  simp only [List.not_mem_nil, false_and, exists_false, iff_false]
  split
  · simp
  · rename_i hcons
    rw [h.applicationByConsAddr.eq_none_iff.2 fun p hp hpc => hcons (List.mem_map.2 ⟨p, hp, hpc⟩)]
    simp

theorem setValidatorStateLeaving_ok {operator : Bytes} (h : PoaInv c s)
    (hrun : (setValidatorStateLeaving operator).run s = .ok u s') : PoaInv c s' := by
  obtain ⟨v, -, -, rfl⟩ := setValidatorStateLeaving_eq_ok hrun
  exact h.setValidatorState v.operator (by decide)

theorem addPrivilege_ok {sender : Bytes} {operators : List Bytes} {privilege : String}
    (h : PoaInv c s) (hrun : (addPrivilege c sender operators privilege).run s = .ok u s') :
    PoaInv c s' := by
  obtain ⟨-, -, -, consAddrs, hloop, rfl⟩ := addPrivilege_eq_ok hrun
  refine h.setPrivilege privilege fun x hx => ?_
  rcases mem_of_addPrivilegeLoop hloop x hx with hx | ⟨operator, v, hv, rfl⟩
  · exact h.getValidatorsConsAddrsByPrivilege_validator hx
  · exact ⟨(operator, v), h.getValidator_eq_some.1 hv, rfl⟩

theorem removePrivilege_ok {sender : Bytes} {operators : List Bytes} {privilege : String}
    (h : PoaInv c s) (hrun : (removePrivilege c sender operators privilege).run s = .ok u s') :
    PoaInv c s' := by
  obtain ⟨-, -, -, consAddrs, hloop, rfl⟩ := removePrivilege_eq_ok hrun
  exact h.setPrivilege privilege fun x hx =>
    h.getValidatorsConsAddrsByPrivilege_validator (mem_of_removePrivilegeLoop hloop x hx)

theorem beginBlocker_ok {height : Int64} (h : PoaInv c s)
    (hrun : (beginBlocker height).run s = .ok u s') : PoaInv c s' := by
  obtain ⟨info, hbegin⟩ : ∃ info, (beginBlocker height).run s =
      .ok () { s with historicalInfo := info } := run_beginBlocker h.getActiveValidators_eq
  rw [hbegin] at hrun
  cases hrun
  exact h.frame _ _ _ _

end PoaInv

/-! ## `EndBlocker` -/

/-- The state `EndBlocker` leaves a validator in: a joining one is active, a leaving one gone. -/
def afterEndBlocker : Option ValidatorState → Option ValidatorState
  | some .joining => some .active
  | some .leaving => none
  | state => state

/-- The update `EndBlocker` hands CometBFT for a validator in a state. -/
def endBlockerUpdate (v : Validator) : Option ValidatorState → Option ValidatorUpdate
  | some .joining => some ⟨v.consPubKey, 1⟩
  | some .leaving => some ⟨v.consPubKey, 0⟩
  | _ => none

variable {c : PoaCodec}

theorem filterMap_endBlockerUpdate_congr {rest : List Validator}
    {f g : Bytes → Option ValidatorState} (h : ∀ op ∈ rest.map (·.operator), f op = g op) :
    rest.filterMap (fun w => endBlockerUpdate w (f w.operator)) =
      rest.filterMap (fun w => endBlockerUpdate w (g w.operator)) :=
  List.filterMap_congr fun w hw => by rw [h _ (List.mem_map_of_mem hw)]

theorem endBlockerLoop_spec : ∀ (rest : List Validator) (updates : List ValidatorUpdate)
    (s : PoaStore), PoaInv c s → (∀ v ∈ rest, (v.operator, v) ∈ s.validators) →
    (rest.map (·.operator)).Nodup →
    ∃ s', (endBlockerLoop c rest updates).run s =
        .ok (updates ++ rest.filterMap fun v => endBlockerUpdate v (s.validatorState v.operator))
          s' ∧
      PoaInv c s' ∧
      (∀ p, p ∈ s'.validators ↔ p ∈ s.validators ∧
        (p.1 ∈ rest.map (·.operator) → s.validatorState p.1 ≠ some .leaving)) ∧
      ∀ operator, s'.validatorState operator =
        if operator ∈ rest.map (·.operator) then afterEndBlocker (s.validatorState operator)
        else s.validatorState operator
  | [], updates, s, h, _, _ => ⟨s, by simp [endBlockerLoop], h, by simp, by simp⟩
  | v :: rest, updates, s, h, hrest, hnodup => by
    obtain ⟨hvnot, hnodup⟩ := List.nodup_cons.1 hnodup
    replace hvnot : v.operator ∉ rest.map (·.operator) := hvnot
    have hv : (v.operator, v) ∈ s.validators := hrest v List.mem_cons_self
    have hrest' : ∀ w ∈ rest, (w.operator, w) ∈ s.validators :=
      fun w hw => hrest w (List.mem_cons_of_mem _ hw)
    -- the validators still to come have operators other than `v`'s
    have hne : ∀ op ∈ rest.map (·.operator), op ≠ v.operator :=
      fun op hop heq => hvnot (heq ▸ hop)
    obtain ⟨state, hstate, hknown⟩ := h.validator_state _ hv
    cases state with
    | unknown => exact absurd rfl hknown
    | active =>
      obtain ⟨s', hrun, h', hval, hst⟩ := endBlockerLoop_spec rest updates s h hrest' hnodup
      refine ⟨s', ?_, h', fun p => ?_, fun op => ?_⟩
      · rw [endBlockerLoop, run_get_bind]
        simp only [hstate]
        rw [hrun, List.filterMap_cons, hstate]
        rfl
      · rw [hval, List.map_cons, List.mem_cons]
        by_cases hp : p.1 = v.operator
        · simp [hp, hstate]
        · simp [hp]
      · rw [hst]
        simp only [List.map_cons, List.mem_cons]
        by_cases hop : op = v.operator
        · subst hop
          simp [hvnot, hstate, afterEndBlocker]
        · simp [hop]
    | joining =>
      have h₁ := h.setValidatorState v.operator (by decide : ValidatorState.active ≠ .unknown)
      obtain ⟨s', hrun, h', hval, hst⟩ :=
        endBlockerLoop_spec rest (updates ++ [⟨v.consPubKey, 1⟩]) _ h₁ hrest' hnodup
      refine ⟨s', ?_, h', fun p => ?_, fun op => ?_⟩
      · rw [endBlockerLoop, run_get_bind]
        simp only [hstate]
        rw [run_bind, run_setValidatorState_of_ne_unknown v (by decide)]
        dsimp only
        rw [hrun, List.filterMap_cons, hstate, filterMap_endBlockerUpdate_congr
          fun op hop => Function.update_of_ne (hne op hop) _ _]
        simp [endBlockerUpdate]
      · rw [hval, List.map_cons, List.mem_cons]
        by_cases hp : p.1 = v.operator
        · simp [hp, hstate, hvnot]
        · simp [hp]
      · rw [hst]
        simp only [List.map_cons, List.mem_cons]
        by_cases hop : op = v.operator
        · subst hop
          simp [hvnot, hstate, afterEndBlocker]
        · simp [hop]
    | leaving =>
      have h₁ := h.removeValidator hv
      have hrest₁ : ∀ w ∈ rest, (w.operator, w) ∈ OrderedMap.erase v.operator s.validators :=
        fun w hw => mem_erase.2 ⟨hrest' w hw, hne _ (List.mem_map_of_mem hw)⟩
      obtain ⟨s', hrun, h', hval, hst⟩ :=
        endBlockerLoop_spec rest (updates ++ [⟨v.consPubKey, 0⟩]) _ h₁ hrest₁ hnodup
      refine ⟨s', ?_, h', fun p => ?_, fun op => ?_⟩
      · rw [endBlockerLoop, run_get_bind]
        simp only [hstate]
        rw [run_bind, run_removeValidator_of_eq (c := c) (h.getValidator_eq_some.2 hv)
          h.privileges_sorted h.privilege_sorted]
        dsimp only
        rw [hrun, List.filterMap_cons, hstate, filterMap_endBlockerUpdate_congr
          fun op hop => Function.update_of_ne (hne op hop) _ _]
        simp [endBlockerUpdate]
      · rw [hval, mem_erase, List.map_cons, List.mem_cons]
        by_cases hp : p.1 = v.operator
        · simp [hp, hstate]
        · simp [hp]
      · rw [hst]
        simp only [List.map_cons, List.mem_cons]
        by_cases hop : op = v.operator
        · subst hop
          simp [hvnot, hstate, afterEndBlocker]
        · simp [hop]

/-- Under the invariant `EndBlocker` does not panic: it makes every joining validator active,
removes every leaving one, and hands CometBFT an update for each of them. -/
theorem endBlocker_spec {s : PoaStore} (h : PoaInv c s) :
    ∃ s', (endBlocker c).run s =
        .ok (s.getAllValidators.filterMap fun v => endBlockerUpdate v (s.validatorState v.operator))
          s' ∧
      PoaInv c s' ∧
      (∀ p, p ∈ s'.validators ↔ p ∈ s.validators ∧ s.validatorState p.1 ≠ some .leaving) ∧
      ∀ p ∈ s'.validators, s'.validatorState p.1 = some .active := by
  -- the snapshot is the validators, each once
  have hkeys : s.getAllValidators.map (·.operator) = s.validators.map Prod.fst := by
    rw [PoaStore.getAllValidators, List.map_map]
    exact List.map_congr_left fun p hp => h.validator_keyed p hp
  have hrest : ∀ v ∈ s.getAllValidators, (v.operator, v) ∈ s.validators := by
    intro v hv
    obtain ⟨p, hp, rfl⟩ := List.mem_map.1 hv
    rw [h.validator_keyed p hp]
    exact hp
  have hnodup : (s.getAllValidators.map (·.operator)).Nodup := by
    rw [hkeys]
    exact (List.pairwise_map.2 h.validators_sorted).imp ne_of_lt
  have hin : ∀ p ∈ s.validators, p.1 ∈ s.getAllValidators.map (·.operator) := fun p hp => by
    rw [hkeys]
    exact List.mem_map_of_mem hp
  obtain ⟨s', hrun, h', hval, hst⟩ := endBlockerLoop_spec _ [] s h hrest hnodup
  refine ⟨s', by rw [endBlocker, run_get_bind, hrun, List.nil_append], h', fun p => ?_,
    fun p hp => ?_⟩
  · rw [hval]
    exact and_congr_right fun hp => ⟨fun hleave => hleave (hin p hp), fun hleave _ => hleave⟩
  · obtain ⟨hp, hleave⟩ := (hval p).1 hp
    obtain ⟨state, hstate, hknown⟩ := h.validator_state p hp
    rw [hst, if_pos (hin p hp), hstate]
    rw [hstate] at hleave
    cases state with
    | unknown => exact absurd rfl hknown
    | joining => rfl
    | active => rfl
    | leaving => exact absurd rfl (hleave (hin p hp))

/-! ## Runs -/

namespace PoaInv
variable {s s' : PoaStore}

theorem run_ok {ups : List ValidatorUpdate} (h : PoaInv c s) :
    ∀ call : PoaCall, (call.run c).run s = .ok ups s' → PoaInv c s'
  | .submitApplication sender v, hrun => by
    obtain ⟨_, hrun⟩ := bind_pure_eq_ok hrun
    exact h.submitApplication_ok hrun
  | .approveApplication sender operator, hrun => by
    obtain ⟨_, hrun⟩ := bind_pure_eq_ok hrun
    exact h.approveApplication_ok hrun
  | .cleanupApplications sender, hrun => by
    obtain ⟨_, hrun⟩ := bind_pure_eq_ok hrun
    exact h.cleanupApplications_ok hrun
  | .kick sender operator, hrun => by
    obtain ⟨_, hrun⟩ := bind_pure_eq_ok hrun
    exact h.setValidatorStateLeaving_ok (kick_eq_ok hrun).2
  | .leave sender, hrun => by
    obtain ⟨_, hrun⟩ := bind_pure_eq_ok hrun
    exact h.setValidatorStateLeaving_ok (leave_eq_ok hrun).2
  | .addPrivilege sender operators privilege, hrun => by
    obtain ⟨_, hrun⟩ := bind_pure_eq_ok hrun
    exact h.addPrivilege_ok hrun
  | .removePrivilege sender operators privilege, hrun => by
    obtain ⟨_, hrun⟩ := bind_pure_eq_ok hrun
    exact h.removePrivilege_ok hrun
  | .transferOwnership sender newOwner, hrun => by
    obtain ⟨_, hrun⟩ := bind_pure_eq_ok hrun
    obtain ⟨-, -, rfl⟩ := transferOwnership_eq_ok hrun
    exact h.frame _ _ _ _
  | .acceptOwnership sender, hrun => by
    obtain ⟨_, hrun⟩ := bind_pure_eq_ok hrun
    obtain ⟨-, rfl⟩ := acceptOwnership_eq_ok hrun
    exact h.frame _ _ _ _
  | .updateParams sender params, hrun => by
    obtain ⟨_, hrun⟩ := bind_pure_eq_ok hrun
    obtain ⟨-, -, rfl⟩ := updateParams_eq_ok hrun
    exact h.frame _ _ _ _
  | .beginBlocker height, hrun => by
    obtain ⟨_, hrun⟩ := bind_pure_eq_ok hrun
    exact h.beginBlocker_ok hrun
  | .endBlocker, hrun => by
    obtain ⟨s₁, hend, h₁, -⟩ := endBlocker_spec h
    rw [PoaCall.run, hend] at hrun
    cases hrun
    exact h₁

/-- Under the invariant a call that fails leaves the store as it was: the messages check before
they write, and the block hooks do not fail. -/
theorem run_error {e : GoError} (h : PoaInv c s) :
    ∀ call : PoaCall, (call.run c).run s = .error e s' → s' = s
  | .submitApplication .., hrun => submitApplication_eq_error (bind_pure_eq_error hrun)
  | .approveApplication .., hrun => approveApplication_eq_error (bind_pure_eq_error hrun)
  | .cleanupApplications .., hrun => cleanupApplications_eq_error h.applications_sorted
      h.application_keyed (bind_pure_eq_error hrun)
  | .kick .., hrun => kick_eq_error (bind_pure_eq_error hrun)
  | .leave .., hrun => leave_eq_error (bind_pure_eq_error hrun)
  | .addPrivilege .., hrun => addPrivilege_eq_error (bind_pure_eq_error hrun)
  | .removePrivilege .., hrun => removePrivilege_eq_error (bind_pure_eq_error hrun)
  | .transferOwnership .., hrun => transferOwnership_eq_error (bind_pure_eq_error hrun)
  | .acceptOwnership .., hrun => acceptOwnership_eq_error (bind_pure_eq_error hrun)
  | .updateParams .., hrun => updateParams_eq_error (bind_pure_eq_error hrun)
  | .beginBlocker height, hrun => by
    obtain ⟨info, hbegin⟩ : ∃ info, (beginBlocker height).run s =
      .ok () { s with historicalInfo := info } := run_beginBlocker h.getActiveValidators_eq
    rw [bind_pure_eq_error hrun] at hbegin
    cases hbegin
  | .endBlocker, hrun => by
    obtain ⟨s₁, hend, -⟩ := endBlocker_spec h
    rw [PoaCall.run, hend] at hrun
    cases hrun

theorem commit_run (h : PoaInv c s) (call : PoaCall) : PoaInv c (commit (call.run c) s) :=
  commit_cases (fun _ _ hrun => h.run_ok call hrun) h

/-- Every run of calls keeps the invariant. -/
theorem runAll (h : PoaInv c s) (calls : List PoaCall) :
    PoaInv c (EStateM.runAll (PoaCall.run c) calls s) :=
  runAll_induction (PoaCall.run c) (A := fun _ => True) (I := PoaInv c)
    (fun call _ _ h' => commit_run h' call) calls (fun _ _ => trivial) s h

end PoaInv

end Poa
end Mezod
