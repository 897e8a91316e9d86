import Mezod.Poa.Keeper

/-! # What each call of the validator pool does

One lemma for each keeper call that returns: the checks it passed and the store it leaves, in
terms of the store it started from. Every call of x/poa makes its checks before its first write,
so one that fails wrote nothing; the two block hooks, which only panic, are the exception, and
`Mezod.Poa.Invariant` shows that they do not panic. The loops have lemmas of their own: the
cleanup empties the applications, the loop of `AddPrivilege` adds only addresses of validators
and that of `RemovePrivilege` only drops addresses. -/

namespace Mezod
namespace Poa
open Go EStateM

variable {c : PoaCodec} {s s' : PoaStore} {u : Unit}

/-! ## Reads -/

theorem activeValidators_congr {t : PoaStore} (h : s.validatorState = t.validatorState) :
    ∀ l, s.activeValidators l = t.activeValidators l
  | [] => rfl
  | v :: rest => by
    simp only [PoaStore.activeValidators, h, activeValidators_congr h rest]

theorem getActiveValidators_congr {t : PoaStore} (hv : s.validators = t.validators)
    (h : s.validatorState = t.validatorState) : s.getActiveValidators = t.getActiveValidators := by
  rw [PoaStore.getActiveValidators, PoaStore.getActiveValidators, PoaStore.getAllValidators,
    PoaStore.getAllValidators, hv, activeValidators_congr h]

theorem activeValidators_eq_ok :
    ∀ {l : List Validator}, (∀ v ∈ l, s.validatorState v.operator ≠ none) →
      s.activeValidators l = .ok (l.filter fun v => s.validatorState v.operator = some .active)
  | [], _ => rfl
  | v :: rest, hl => by
    obtain ⟨state, hstate⟩ := Option.ne_none_iff_exists'.1 (hl v List.mem_cons_self)
    have ih := activeValidators_eq_ok fun w hw => hl w (List.mem_cons_of_mem _ hw)
    simp only [PoaStore.activeValidators, hstate, ih, List.filter_cons]
    by_cases hactive : state = .active <;> simp [hactive]

theorem checkAccount_eq_ok {sender expected : Bytes} {accName : String}
    (h : checkAccount c sender expected accName = .ok ()) :
    sender ≠ [] ∧ expected ≠ [] ∧ c.accString expected = c.accString sender := by
  unfold checkAccount at h
  split at h
  · cases h
  split at h
  · cases h
  split at h
  · cases h
  rename_i h₁ h₂ h₃
  refine ⟨?_, ?_, not_not.1 h₃⟩
  · simpa using h₁
  · simpa using h₂

/-! ## Writes -/

theorem run_setValidatorState_of_ne_unknown (v : Validator) {state : ValidatorState}
    (h : state ≠ .unknown) (s : PoaStore) :
    (setValidatorState v state).run s = .ok () { s with
      validatorState := Function.update s.validatorState v.operator (some state) } := by
  cases state
  · exact absurd rfl h
  all_goals rfl

theorem run_removeApplication_of_eq (s : PoaStore) {operator : Bytes} {application : Application}
    (h : s.getApplication operator = some application) :
    (removeApplication c operator).run s = .ok () { s with
      applications := OrderedMap.erase operator s.applications
      applicationByConsAddr :=
        Function.update s.applicationByConsAddr (getConsAddress c application.validator) none } := by
  simp only [removeApplication, run_get_bind, h]
  rfl

theorem run_forM_removeApplication :
    ∀ (l : List (Bytes × Application)) (s : PoaStore), s.applications = l →
      OrderedMap.Sorted l → (∀ p ∈ l, p.2.validator.operator = p.1) →
      ((l.map Prod.snd).forM fun a => removeApplication c a.validator.operator).run s =
        .ok () { s with
          applications := []
          applicationByConsAddr := fun cons =>
            if cons ∈ l.map fun p => getConsAddress c p.2.validator then none
            else s.applicationByConsAddr cons }
  | [], s, hs, _, _ => by
    simp only [List.map_nil, List.not_mem_nil, if_false]
    rw [← hs]
    rfl
  | p :: rest, s, hs, hsorted, hkeyed => by
    obtain ⟨hp, hrest⟩ := List.pairwise_cons.1 hsorted
    have hk : p.2.validator.operator = p.1 := hkeyed p List.mem_cons_self
    have hlookup : s.getApplication p.2.validator.operator = some p.2 := by
      rw [PoaStore.getApplication, hs, hk]
      simp [List.lookup]
    -- the head goes, and the rest are the applications left
    have herase : OrderedMap.erase p.2.validator.operator s.applications = rest := by
      rw [hs, hk]
      simp only [OrderedMap.erase, List.filter_cons, ne_eq, not_true_eq_false, decide_false,
        Bool.false_eq_true, if_false]
      exact List.filter_eq_self.2 fun q hq => by simpa using ne_of_gt (hp q hq)
    have hstep := run_removeApplication_of_eq (c := c) s hlookup
    rw [herase] at hstep
    have ih := run_forM_removeApplication rest { s with
      applications := rest
      applicationByConsAddr :=
        Function.update s.applicationByConsAddr (getConsAddress c p.2.validator) none }
      rfl hrest fun q hq => hkeyed q (List.mem_cons_of_mem _ hq)
    show ((removeApplication c p.2.validator.operator >>= fun _ =>
      (rest.map Prod.snd).forM fun a => removeApplication c a.validator.operator).run s) = _
    rw [run_bind, hstep]
    dsimp only
    rw [ih]
    congr 2
    funext cons
    by_cases hc : cons = getConsAddress c p.2.validator
    · simp [hc]
    · simp only [List.map_cons, List.mem_cons, hc, false_or, ne_eq, not_false_eq_true,
        Function.update_of_ne]

/-! ## Applications -/

theorem submitApplication_eq_ok {sender : Bytes} {v : Validator}
    (h : (submitApplication c sender v).run s = .ok u s') :
    checkValidatorOperator c sender v = .ok () ∧ checkMaxValidators s = .ok () ∧
      s.getValidator v.operator = none ∧ s.getValidatorByConsAddr (getConsAddress c v) = none ∧
      s.getApplication v.operator = none ∧ s.getApplicationByConsAddr (getConsAddress c v) = none ∧
      s' = { s with
        applications := OrderedMap.insert v.operator ⟨v⟩ s.applications
        applicationByConsAddr :=
          Function.update s.applicationByConsAddr (getConsAddress c v) (some v.operator) } := by
  rw [submitApplication, run_get_bind] at h
  obtain ⟨_, hop, h⟩ := fromExcept_bind_eq_ok h
  obtain ⟨_, hmax, h⟩ := fromExcept_bind_eq_ok h
  obtain ⟨h₁, h⟩ := bind_guard_eq_ok h
  obtain ⟨h₂, h⟩ := bind_guard_eq_ok h
  obtain ⟨h₃, h⟩ := bind_guard_eq_ok h
  obtain ⟨h₄, h⟩ := bind_guard_eq_ok h
  cases h
  simp only [Bool.not_eq_true, Option.isSome_eq_false_iff, Option.isNone_iff_eq_none] at h₁ h₂ h₃ h₄
  exact ⟨hop, hmax, h₁, h₂, h₃, h₄, rfl⟩

theorem submitApplication_eq_error {sender : Bytes} {v : Validator} {e : GoError}
    (h : (submitApplication c sender v).run s = .error e s') : s' = s := by
  rw [submitApplication, run_get_bind] at h
  -- every check comes before the one write, which does not fail
  rcases fromExcept_bind_eq_error h with ⟨-, rfl⟩ | ⟨_, -, h⟩
  · rfl
  rcases fromExcept_bind_eq_error h with ⟨-, rfl⟩ | ⟨_, -, h⟩
  · rfl
  rcases bind_guard_eq_error h with ⟨-, -, rfl⟩ | ⟨-, h⟩
  · rfl
  rcases bind_guard_eq_error h with ⟨-, -, rfl⟩ | ⟨-, h⟩
  · rfl
  rcases bind_guard_eq_error h with ⟨-, -, rfl⟩ | ⟨-, h⟩
  · rfl
  rcases bind_guard_eq_error h with ⟨-, -, rfl⟩ | ⟨-, h⟩
  · rfl
  cases h

theorem approveApplication_eq_ok {sender operator : Bytes}
    (h : (approveApplication c sender operator).run s = .ok u s') :
    checkOwner c s sender = .ok () ∧ checkMaxValidators s = .ok () ∧
      ∃ application, s.getApplication operator = some application ∧
        s' = { s with
          applications := OrderedMap.erase operator s.applications
          applicationByConsAddr := Function.update s.applicationByConsAddr
            (getConsAddress c application.validator) none
          validators := OrderedMap.insert application.validator.operator application.validator
            s.validators
          validatorByConsAddr := Function.update s.validatorByConsAddr
            (getConsAddress c application.validator) (some application.validator.operator)
          validatorState := Function.update s.validatorState application.validator.operator
            (some .joining) } := by
  rw [approveApplication, run_get_bind] at h
  obtain ⟨_, howner, h⟩ := fromExcept_bind_eq_ok h
  obtain ⟨_, hmax, h⟩ := fromExcept_bind_eq_ok h
  refine ⟨howner, hmax, ?_⟩
  cases happ : s.getApplication operator with
  | none =>
    rw [happ] at h
    cases h
  | some application =>
    rw [happ] at h
    obtain ⟨_, s₁, h₁, h⟩ := bind_eq_ok h
    rw [run_removeApplication_of_eq s happ] at h₁
    cases h₁
    cases h
    exact ⟨application, rfl, rfl⟩

theorem approveApplication_eq_error {sender operator : Bytes} {e : GoError}
    (h : (approveApplication c sender operator).run s = .error e s') : s' = s := by
  rw [approveApplication, run_get_bind] at h
  rcases fromExcept_bind_eq_error h with ⟨-, rfl⟩ | ⟨_, -, h⟩
  · rfl
  rcases fromExcept_bind_eq_error h with ⟨-, rfl⟩ | ⟨_, -, h⟩
  · rfl
  cases happ : s.getApplication operator with
  | none =>
    rw [happ] at h
    cases h
    rfl
  | some application =>
    rw [happ] at h
    rw [run_bind, run_removeApplication_of_eq s happ] at h
    cases h

theorem cleanupApplications_eq_ok {sender : Bytes}
    (h : (cleanupApplications c sender).run s = .ok u s') :
    checkOwner c s sender = .ok () ∧
      ((s.applications.map Prod.snd).forM fun a => removeApplication c a.validator.operator).run s =
        .ok u s' := by
  rw [cleanupApplications, run_get_bind] at h
  obtain ⟨_, howner, h⟩ := fromExcept_bind_eq_ok h
  exact ⟨howner, h⟩

theorem cleanupApplications_eq_error {sender : Bytes} {e : GoError}
    (hsorted : OrderedMap.Sorted s.applications)
    (hkeyed : ∀ p ∈ s.applications, p.2.validator.operator = p.1)
    (h : (cleanupApplications c sender).run s = .error e s') : s' = s := by
  rw [cleanupApplications, run_get_bind] at h
  rcases fromExcept_bind_eq_error h with ⟨-, rfl⟩ | ⟨_, -, h⟩
  · rfl
  rw [run_forM_removeApplication _ s rfl hsorted hkeyed] at h
  cases h

/-! ## Leaving the pool -/

theorem setValidatorStateLeaving_eq_ok {operator : Bytes}
    (h : (setValidatorStateLeaving operator).run s = .ok u s') :
    ∃ v, s.getValidator operator = some v ∧ s.validatorState operator = some .active ∧
      s' = { s with validatorState := Function.update s.validatorState v.operator (some .leaving) } := by
  rw [setValidatorStateLeaving, run_get_bind] at h
  cases hv : s.getValidator operator with
  | none =>
    rw [hv] at h
    cases h
  | some v =>
    rw [hv] at h
    cases hst : s.validatorState operator with
    | none =>
      rw [hst] at h
      cases h
    | some state =>
      rw [hst] at h
      obtain ⟨hactive, h⟩ := bind_guard_eq_ok h
      rw [run_setValidatorState_of_ne_unknown v (by decide)] at h
      cases h
      exact ⟨v, rfl, by simpa using hactive, rfl⟩

theorem setValidatorStateLeaving_eq_error {operator : Bytes} {e : GoError}
    (h : (setValidatorStateLeaving operator).run s = .error e s') : s' = s := by
  rw [setValidatorStateLeaving, run_get_bind] at h
  cases hv : s.getValidator operator with
  | none =>
    rw [hv] at h
    cases h
    rfl
  | some v =>
    rw [hv] at h
    cases hst : s.validatorState operator with
    | none =>
      rw [hst] at h
      cases h
      rfl
    | some state =>
      rw [hst] at h
      rcases bind_guard_eq_error h with ⟨-, -, rfl⟩ | ⟨-, h⟩
      · rfl
      rw [run_setValidatorState_of_ne_unknown v (by decide)] at h
      cases h

theorem kick_eq_ok {sender operator : Bytes} (h : (kick c sender operator).run s = .ok u s') :
    checkOwner c s sender = .ok () ∧ (setValidatorStateLeaving operator).run s = .ok u s' := by
  rw [kick, run_get_bind] at h
  obtain ⟨_, howner, h⟩ := fromExcept_bind_eq_ok h
  exact ⟨howner, h⟩

theorem kick_eq_error {sender operator : Bytes} {e : GoError}
    (h : (kick c sender operator).run s = .error e s') : s' = s := by
  rw [kick, run_get_bind] at h
  rcases fromExcept_bind_eq_error h with ⟨-, rfl⟩ | ⟨_, -, h⟩
  · rfl
  exact setValidatorStateLeaving_eq_error h

theorem leave_eq_ok {sender : Bytes} (h : (leave sender).run s = .ok u s') :
    (∃ active, s.getActiveValidators = .ok active ∧ active.length ≠ 1) ∧
      (setValidatorStateLeaving sender).run s = .ok u s' := by
  rw [leave, run_get_bind] at h
  obtain ⟨active, hactive, h⟩ := fromExcept_bind_eq_ok h
  obtain ⟨hlen, h⟩ := bind_guard_eq_ok h
  exact ⟨⟨active, hactive, hlen⟩, h⟩

theorem leave_eq_error {sender : Bytes} {e : GoError} (h : (leave sender).run s = .error e s') :
    s' = s := by
  rw [leave, run_get_bind] at h
  rcases fromExcept_bind_eq_error h with ⟨-, rfl⟩ | ⟨_, -, h⟩
  · rfl
  rcases bind_guard_eq_error h with ⟨-, -, rfl⟩ | ⟨-, h⟩
  · rfl
  exact setValidatorStateLeaving_eq_error h

/-! ## Privileges -/

theorem mem_of_addPrivilegeLoop {privilege : String} :
    ∀ {acc operators r : List Bytes}, addPrivilegeLoop c s privilege acc operators = .ok r →
      ∀ x ∈ r, x ∈ acc ∨ ∃ operator v, s.getValidator operator = some v ∧ getConsAddress c v = x
  | acc, [], r, h => by
    cases h
    exact fun x hx => .inl hx
  | acc, operator :: rest, r, h => by
    unfold addPrivilegeLoop at h
    cases hv : s.getValidator operator with
    | none =>
      rw [hv] at h
      cases h
    | some v =>
      rw [hv] at h
      dsimp only at h
      split at h
      · cases h
      intro x hx
      rcases mem_of_addPrivilegeLoop h x hx with hx | hx
      · rcases List.mem_append.1 hx with hx | hx
        · exact .inl hx
        · exact .inr ⟨operator, v, hv, (List.mem_singleton.1 hx).symm⟩
      · exact .inr hx

theorem mem_of_removePrivilegeLoop {privilege : String} :
    ∀ {acc operators r : List Bytes}, removePrivilegeLoop c s privilege acc operators = .ok r →
      ∀ x ∈ r, x ∈ acc
  | acc, [], r, h => by
    cases h
    exact fun x hx => hx
  | acc, operator :: rest, r, h => by
    unfold removePrivilegeLoop at h
    cases hv : s.getValidator operator with
    | none =>
      rw [hv] at h
      cases h
    | some v =>
      rw [hv] at h
      dsimp only at h
      split at h
      · cases h
      · exact fun x hx => List.mem_of_mem_eraseIdx (mem_of_removePrivilegeLoop h x hx)

theorem addPrivilege_eq_ok {sender : Bytes} {operators : List Bytes} {privilege : String}
    (h : (addPrivilege c sender operators privilege).run s = .ok u s') :
    checkOwner c s sender = .ok () ∧ operators ≠ [] ∧ privilege ≠ "" ∧
      ∃ consAddrs, addPrivilegeLoop c s privilege (s.getValidatorsConsAddrsByPrivilege privilege)
          operators = .ok consAddrs ∧
        s' = { s with
          validatorsByPrivilege := OrderedMap.insert privilege
            (compactFunc (· == ·) (sortFunc consAddrs)) s.validatorsByPrivilege } := by
  rw [addPrivilege, run_get_bind] at h
  obtain ⟨_, howner, h⟩ := fromExcept_bind_eq_ok h
  obtain ⟨hops, h⟩ := bind_guard_eq_ok h
  obtain ⟨hpriv, h⟩ := bind_guard_eq_ok h
  obtain ⟨consAddrs, hloop, h⟩ := fromExcept_bind_eq_ok h
  cases h
  refine ⟨howner, ?_, ?_, consAddrs, hloop, rfl⟩
  · simpa using hops
  · simpa [String.isEmpty_iff] using hpriv

theorem addPrivilege_eq_error {sender : Bytes} {operators : List Bytes} {privilege : String}
    {e : GoError} (h : (addPrivilege c sender operators privilege).run s = .error e s') :
    s' = s := by
  rw [addPrivilege, run_get_bind] at h
  rcases fromExcept_bind_eq_error h with ⟨-, rfl⟩ | ⟨_, -, h⟩
  · rfl
  rcases bind_guard_eq_error h with ⟨-, -, rfl⟩ | ⟨-, h⟩
  · rfl
  rcases bind_guard_eq_error h with ⟨-, -, rfl⟩ | ⟨-, h⟩
  · rfl
  rcases fromExcept_bind_eq_error h with ⟨-, rfl⟩ | ⟨_, -, h⟩
  · rfl
  cases h

theorem removePrivilege_eq_ok {sender : Bytes} {operators : List Bytes} {privilege : String}
    (h : (removePrivilege c sender operators privilege).run s = .ok u s') :
    checkOwner c s sender = .ok () ∧ operators ≠ [] ∧ privilege ≠ "" ∧
      ∃ consAddrs, removePrivilegeLoop c s privilege
          (s.getValidatorsConsAddrsByPrivilege privilege) operators = .ok consAddrs ∧
        s' = { s with
          validatorsByPrivilege := OrderedMap.insert privilege
            (compactFunc (· == ·) (sortFunc consAddrs)) s.validatorsByPrivilege } := by
  rw [removePrivilege, run_get_bind] at h
  obtain ⟨_, howner, h⟩ := fromExcept_bind_eq_ok h
  obtain ⟨hops, h⟩ := bind_guard_eq_ok h
  obtain ⟨hpriv, h⟩ := bind_guard_eq_ok h
  obtain ⟨consAddrs, hloop, h⟩ := fromExcept_bind_eq_ok h
  cases h
  refine ⟨howner, ?_, ?_, consAddrs, hloop, rfl⟩
  · simpa using hops
  · simpa [String.isEmpty_iff] using hpriv

theorem removePrivilege_eq_error {sender : Bytes} {operators : List Bytes} {privilege : String}
    {e : GoError} (h : (removePrivilege c sender operators privilege).run s = .error e s') :
    s' = s := by
  rw [removePrivilege, run_get_bind] at h
  rcases fromExcept_bind_eq_error h with ⟨-, rfl⟩ | ⟨_, -, h⟩
  · rfl
  rcases bind_guard_eq_error h with ⟨-, -, rfl⟩ | ⟨-, h⟩
  · rfl
  rcases bind_guard_eq_error h with ⟨-, -, rfl⟩ | ⟨-, h⟩
  · rfl
  rcases fromExcept_bind_eq_error h with ⟨-, rfl⟩ | ⟨_, -, h⟩
  · rfl
  cases h

theorem run_removePrivilegeFrom {cons : Bytes} {privilege : String} {l : List Bytes}
    (hs : OrderedMap.Sorted s.validatorsByPrivilege)
    (hmem : (privilege, l) ∈ s.validatorsByPrivilege) (hl : l.Pairwise (· < ·)) :
    (removePrivilegeFrom cons privilege).run s = .ok () { s with
      validatorsByPrivilege := s.validatorsByPrivilege.map fun q =>
        if q.1 = privilege then (privilege, l.erase cons) else q } := by
  have hget : s.getValidatorsConsAddrsByPrivilege privilege = l := by
    rw [PoaStore.getValidatorsConsAddrsByPrivilege, (OrderedMap.lookup_eq_some_iff hs).2 hmem]
    rfl
  -- where the pass writes nothing, erasing the address changes nothing either
  have hsame (herase : l.erase cons = l) : (.ok () s : Result GoError PoaStore Unit) =
      .ok () { s with validatorsByPrivilege := s.validatorsByPrivilege.map fun q =>
        if q.1 = privilege then (privilege, l.erase cons) else q } := by
    rw [herase, OrderedMap.map_update_self hs hmem]
  rw [removePrivilegeFrom, run_get_bind]
  simp only [hget]
  split
  · rename_i hnil
    exact hsame (by rw [List.isEmpty_iff.1 hnil]; rfl)
  split
  · rename_i hnone
    have hnot : cons ∉ l := fun hc => by simpa using List.findIdx?_eq_none_iff.1 hnone cons hc
    exact hsame (List.erase_of_not_mem hnot)
  · rename_i i hi
    have herase : l.eraseIdx i = l.erase cons := by
      rw [List.erase_eq_eraseP', List.eraseP_eq_eraseIdx, hi]
    have hsorted : (l.erase cons).Pairwise (· < ·) := hl.sublist List.erase_sublist
    show Result.ok () { s with
      validatorsByPrivilege := OrderedMap.insert privilege
        (compactFunc (· == ·) (sortFunc (l.eraseIdx i))) s.validatorsByPrivilege } = _
    rw [herase, sortFunc_of_pairwise (hsorted.imp le_of_lt), compactFunc_of_pairwise_lt hsorted,
      OrderedMap.insert_of_mem hs (List.mem_map_of_mem (f := Prod.fst) hmem)]

theorem run_forM_removePrivilegeFrom {cons : Bytes} :
    ∀ (ks : List String) (s : PoaStore), OrderedMap.Sorted s.validatorsByPrivilege →
      (∀ q ∈ s.validatorsByPrivilege, q.2.Pairwise (· < ·)) → ks.Nodup →
      (∀ k ∈ ks, k ∈ s.validatorsByPrivilege.map Prod.fst) →
      (ks.forM (removePrivilegeFrom cons)).run s = .ok () { s with
        validatorsByPrivilege := s.validatorsByPrivilege.map fun q =>
          if q.1 ∈ ks then (q.1, q.2.erase cons) else q }
  | [], s, _, _, _, _ => by
    simp only [List.not_mem_nil, if_false, List.map_id']
    rfl
  | k :: ks, s, hs, hl, hnodup, hks => by
    obtain ⟨⟨k', l⟩, hmem, hk⟩ := List.mem_map.1 (hks k List.mem_cons_self)
    dsimp only at hk
    subst hk
    obtain ⟨hnotin, hnodup⟩ := List.nodup_cons.1 hnodup
    -- the first pass rewrites the one entry under `k'`, and the keys stay as they were
    let f : String × List Bytes → String × List Bytes := fun q =>
      if q.1 = k' then (k', l.erase cons) else q
    have hf : ∀ q ∈ s.validatorsByPrivilege, (f q).1 = q.1 := fun q _ => by
      by_cases h : q.1 = k' <;> simp [f, h]
    have hkeys : (s.validatorsByPrivilege.map f).map Prod.fst = s.validatorsByPrivilege.map Prod.fst := by
      rw [List.map_map]
      exact List.map_congr_left fun q hq => hf q hq
    have hl₁ : ∀ q ∈ s.validatorsByPrivilege.map f, q.2.Pairwise (· < ·) := by
      intro q hq
      obtain ⟨q₀, hq₀, rfl⟩ := List.mem_map.1 hq
      by_cases h : q₀.1 = k'
      · simpa [f, h] using (hl _ hmem).sublist List.erase_sublist
      · simpa [f, h] using hl q₀ hq₀
    have ih := @run_forM_removePrivilegeFrom cons ks
      { s with validatorsByPrivilege := s.validatorsByPrivilege.map f }
      (OrderedMap.sorted_map hs hf) hl₁ hnodup fun k hk => by
        rw [hkeys]
        exact hks k (List.mem_cons_of_mem _ hk)
    show ((removePrivilegeFrom cons k' >>= fun _ =>
      ks.forM (removePrivilegeFrom cons)).run s) = _
    rw [run_bind, run_removePrivilegeFrom hs hmem (hl _ hmem)]
    dsimp only
    rw [ih]
    congr 2
    rw [List.map_map]
    refine List.map_congr_left fun q hq => ?_
    by_cases h : q.1 = k'
    · rw [← OrderedMap.eq_of_key_eq hs hmem hq h.symm]
      simp [f, hnotin]
    · simp [f, h]

theorem run_removeAllPrivileges {cons : Bytes} (hs : OrderedMap.Sorted s.validatorsByPrivilege)
    (hl : ∀ q ∈ s.validatorsByPrivilege, q.2.Pairwise (· < ·)) :
    (removeAllPrivileges cons).run s = .ok () { s with
      validatorsByPrivilege := s.validatorsByPrivilege.map fun q => (q.1, q.2.erase cons) } := by
  have hnodup : s.getAllPrivileges.Nodup := (List.pairwise_map.2 hs).imp ne_of_lt
  rw [removeAllPrivileges, run_get_bind,
    run_forM_removePrivilegeFrom _ s hs hl hnodup fun k hk => hk]
  congr 2
  exact List.map_congr_left fun q hq => if_pos (List.mem_map_of_mem hq)

/-- `removeValidator` of a validator: its privileges, its record, its index entry and its state
go. -/
theorem run_removeValidator_of_eq {operator : Bytes} {v : Validator}
    (h : s.getValidator operator = some v) (hs : OrderedMap.Sorted s.validatorsByPrivilege)
    (hl : ∀ q ∈ s.validatorsByPrivilege, q.2.Pairwise (· < ·)) :
    (removeValidator c operator).run s = .ok () { s with
      validatorsByPrivilege :=
        s.validatorsByPrivilege.map fun q => (q.1, q.2.erase (getConsAddress c v))
      validators := OrderedMap.erase operator s.validators
      validatorByConsAddr := Function.update s.validatorByConsAddr (getConsAddress c v) none
      validatorState := Function.update s.validatorState operator none } := by
  rw [removeValidator, run_get_bind, h]
  dsimp only
  rw [run_bind, run_removeAllPrivileges hs hl]
  rfl

/-! ## Ownership and parameters -/

theorem transferOwnership_eq_ok {sender newOwner : Bytes}
    (h : (transferOwnership c sender newOwner).run s = .ok u s') :
    checkOwner c s sender = .ok () ∧ newOwner ≠ [] ∧ s' = { s with candidateOwner := newOwner } := by
  rw [transferOwnership, run_get_bind] at h
  obtain ⟨_, howner, h⟩ := fromExcept_bind_eq_ok h
  obtain ⟨hnew, h⟩ := bind_guard_eq_ok h
  cases h
  exact ⟨howner, by simpa using hnew, rfl⟩

theorem transferOwnership_eq_error {sender newOwner : Bytes} {e : GoError}
    (h : (transferOwnership c sender newOwner).run s = .error e s') : s' = s := by
  rw [transferOwnership, run_get_bind] at h
  rcases fromExcept_bind_eq_error h with ⟨-, rfl⟩ | ⟨_, -, h⟩
  · rfl
  rcases bind_guard_eq_error h with ⟨-, -, rfl⟩ | ⟨-, h⟩
  · rfl
  cases h

theorem acceptOwnership_eq_ok {sender : Bytes} (h : (acceptOwnership c sender).run s = .ok u s') :
    checkCandidateOwner c s sender = .ok () ∧
      s' = { s with owner := s.candidateOwner, candidateOwner := [] } := by
  rw [acceptOwnership, run_get_bind] at h
  obtain ⟨_, hcandidate, h⟩ := fromExcept_bind_eq_ok h
  cases h
  exact ⟨hcandidate, rfl⟩

theorem acceptOwnership_eq_error {sender : Bytes} {e : GoError}
    (h : (acceptOwnership c sender).run s = .error e s') : s' = s := by
  rw [acceptOwnership, run_get_bind] at h
  rcases fromExcept_bind_eq_error h with ⟨-, rfl⟩ | ⟨_, -, h⟩
  · rfl
  cases h

theorem updateParams_eq_ok {sender : Bytes} {params : Params}
    (h : (updateParams c sender params).run s = .ok u s') :
    checkOwner c s sender = .ok () ∧ params.validate = .ok () ∧ s' = { s with params := params } := by
  rw [updateParams, run_get_bind] at h
  obtain ⟨_, howner, h⟩ := fromExcept_bind_eq_ok h
  refine ⟨howner, ?_⟩
  cases hvalid : params.validate with
  | error err =>
    rw [hvalid] at h
    cases h
  | ok val =>
    rw [hvalid] at h
    cases h
    exact ⟨rfl, rfl⟩

theorem updateParams_eq_error {sender : Bytes} {params : Params} {e : GoError}
    (h : (updateParams c sender params).run s = .error e s') : s' = s := by
  rw [updateParams, run_get_bind] at h
  rcases fromExcept_bind_eq_error h with ⟨-, rfl⟩ | ⟨_, -, h⟩
  · rfl
  cases hvalid : params.validate with
  | error err =>
    rw [hvalid] at h
    cases h
    rfl
  | ok val =>
    rw [hvalid] at h
    cases h

/-! ## Blocks -/

theorem run_pruneHistoricalInfo : ∀ (fuel : Nat) (i : Int64) (s : PoaStore),
    ∃ info, (pruneHistoricalInfo fuel i).run s = .ok () { s with historicalInfo := info }
  | 0, _, s => ⟨s.historicalInfo, rfl⟩
  | fuel + 1, i, s => by
    unfold pruneHistoricalInfo
    split
    · exact ⟨s.historicalInfo, rfl⟩
    rw [run_get_bind]
    split
    · exact run_pruneHistoricalInfo fuel (i - 1)
        { s with historicalInfo := Function.update s.historicalInfo i none }
    · exact ⟨s.historicalInfo, rfl⟩

/-- `BeginBlocker` writes only historical entries, and returns where the active validators can
be read. -/
theorem run_beginBlocker {height : Int64} {active : List Validator}
    (hactive : s.getActiveValidators = .ok active) :
    ∃ info, (beginBlocker height).run s = .ok () { s with historicalInfo := info } := by
  obtain ⟨info, hprune⟩ := run_pruneHistoricalInfo
    ((height - historicalEntries.toUInt64.toInt64).toInt + 1).toNat
    (height - historicalEntries.toUInt64.toInt64) s
  have hentries : historicalEntries ≠ 0 := by decide
  have hactive' : ({ s with historicalInfo := info } : PoaStore).getActiveValidators =
      .ok active := by
    rw [← hactive]
    exact getActiveValidators_congr rfl rfl
  rw [beginBlocker, trackHistoricalInfo, run_bind, hprune]
  dsimp only
  rw [if_neg hentries, run_get_bind, hactive', run_fromExcept_ok_bind]
  exact ⟨_, rfl⟩

end Poa
end Mezod
