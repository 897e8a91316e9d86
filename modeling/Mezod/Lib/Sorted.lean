import Mathlib

/-! # Lists sorted by a key

A list sorted by a key with no key repeated is strictly sorted. Two strictly sorted lists whose
members pair off under a relation that keeps the key are related position by position: the
order of a sorted result is fixed by the keys alone, whatever order its input came in.

An ordered map is a store whose keys iterate in order: a list of entries strictly sorted by key.
Writing a key replaces its entry or puts a new one in its place, deleting a key drops its entry,
and both keep the list sorted. Bytes are ordered as a KV store orders its keys, lexicographically
by the order of `UInt8`. -/

namespace KeySorted
variable {α κ : Type} [LinearOrder κ] {key : α → κ}

theorem pairwise_lt_of_nodup {l : List α} (hs : l.Pairwise fun a b => key a ≤ key b)
    (hnd : (l.map key).Nodup) : l.Pairwise fun a b => key a < key b := by
  have hne : l.Pairwise fun a b => key a ≠ key b := List.pairwise_map.1 hnd
  exact (hs.and hne).imp fun h => lt_of_le_of_ne h.1 h.2

/-- Two strictly sorted lists whose members pair off under a relation that keeps the key are
related position by position. The heads pair off with each other, as each one's partner has the
least key on its side. -/
theorem forall₂_of_pairwise_lt {r : α → α → Prop} (hr : ∀ a b, r a b → key a = key b) :
    ∀ {l₁ l₂ : List α}, l₁.Pairwise (fun a b => key a < key b) →
      l₂.Pairwise (fun a b => key a < key b) →
      (∀ a ∈ l₁, ∃ b ∈ l₂, r a b) → (∀ b ∈ l₂, ∃ a ∈ l₁, r a b) → List.Forall₂ r l₁ l₂
  | [], [], _, _, _, _ => .nil
  | [], b :: _, _, _, _, h₂ => by
    obtain ⟨a, ha, -⟩ := h₂ b List.mem_cons_self
    cases ha
  | a :: _, [], _, _, h₁, _ => by
    obtain ⟨b, hb, -⟩ := h₁ a List.mem_cons_self
    cases hb
  | a :: l₁, b :: l₂, hs₁, hs₂, h₁, h₂ => by
    obtain ⟨ha, hs₁⟩ := List.pairwise_cons.1 hs₁
    obtain ⟨hb, hs₂⟩ := List.pairwise_cons.1 hs₂
    -- the least key of each side is the least of the other
    obtain ⟨b₀, hb₀, hab₀⟩ := h₁ a List.mem_cons_self
    obtain ⟨a₀, ha₀, ha₀b⟩ := h₂ b List.mem_cons_self
    have hle₁ : key b ≤ key b₀ := by
      rcases List.mem_cons.1 hb₀ with rfl | hb₀
      · exact le_rfl
      · exact (hb b₀ hb₀).le
    have hle₂ : key a ≤ key a₀ := by
      rcases List.mem_cons.1 ha₀ with rfl | ha₀
      · exact le_rfl
      · exact (ha a₀ ha₀).le
    have hkey : key a = key b :=
      le_antisymm (hle₂.trans_eq (hr _ _ ha₀b)) (hle₁.trans_eq (hr _ _ hab₀).symm)
    have hb₀b : b₀ = b := by
      rcases List.mem_cons.1 hb₀ with h | hb₀
      · exact h
      · exact absurd (hb b₀ hb₀) (by rw [← hr _ _ hab₀, hkey]; exact lt_irrefl _)
    refine .cons (hb₀b ▸ hab₀) (forall₂_of_pairwise_lt hr hs₁ hs₂ ?_ ?_)
    · -- a later member's partner has a key above the heads', so it is not the head
      intro a' ha'
      obtain ⟨b', hb', hr'⟩ := h₁ a' (List.mem_cons_of_mem _ ha')
      rcases List.mem_cons.1 hb' with rfl | hb'
      · exact absurd (ha a' ha') (by rw [hr _ _ hr', hkey]; exact lt_irrefl _)
      · exact ⟨b', hb', hr'⟩
    · intro b' hb'
      obtain ⟨a', ha', hr'⟩ := h₂ b' (List.mem_cons_of_mem _ hb')
      rcases List.mem_cons.1 ha' with rfl | ha'
      · exact absurd (hb b' hb') (by rw [← hr _ _ hr', ← hkey]; exact lt_irrefl _)
      · exact ⟨a', ha', hr'⟩

end KeySorted

/-- `UInt8` ordered by its value, as core's `≤` and `<` already do. -/
instance instLinearOrderUInt8 : LinearOrder UInt8 where
  le_refl _ := Nat.le_refl _
  le_trans _ _ _ := Nat.le_trans
  le_antisymm _ _ h₁ h₂ := UInt8.toNat_inj.1 (Nat.le_antisymm h₁ h₂)
  lt_iff_le_not_ge _ _ := Nat.lt_iff_le_and_not_ge
  le_total _ _ := Nat.le_total _ _
  toDecidableLE := inferInstance
  toDecidableEq := inferInstance
  toDecidableLT := inferInstance

namespace OrderedMap
variable {κ : Type} {ν : Type*} [LinearOrder κ]

/-- The keys are strictly increasing. -/
def Sorted (l : List (κ × ν)) : Prop :=
  l.Pairwise fun a b => a.1 < b.1

/-- Writing `v` under `key`. -/
def insert (key : κ) (v : ν) : List (κ × ν) → List (κ × ν)
  | [] => [(key, v)]
  | p :: rest =>
    if key < p.1 then (key, v) :: p :: rest
    else if key = p.1 then (key, v) :: rest
    else p :: insert key v rest

/-- Deleting `key`. -/
def erase (key : κ) (l : List (κ × ν)) : List (κ × ν) :=
  l.filter fun p => p.1 ≠ key

variable {key : κ} {v : ν} {l : List (κ × ν)}

theorem mem_insert (hs : Sorted l) {p : κ × ν} :
    p ∈ insert key v l ↔ p = (key, v) ∨ p ∈ l ∧ p.1 ≠ key := by
  induction l with
  | nil => simp [insert]
  | cons q rest ih =>
    obtain ⟨hq, hs⟩ := List.pairwise_cons.1 hs
    unfold insert
    -- the entries after the head have keys above the head's
    split
    · rename_i hlt
      have hne : ∀ r ∈ q :: rest, r.1 ≠ key := by
        intro r hr
        rcases List.mem_cons.1 hr with rfl | hr
        · exact ne_of_gt hlt
        · exact ne_of_gt (hlt.trans (hq r hr))
      constructor
      · intro h
        rcases List.mem_cons.1 h with h | h
        · exact .inl h
        · exact .inr ⟨h, hne p h⟩
      · rintro (rfl | ⟨h, -⟩)
        · exact List.mem_cons_self
        · exact List.mem_cons_of_mem _ h
    split
    · rename_i _ heq
      subst heq
      simp only [List.mem_cons]
      constructor
      · rintro (rfl | h)
        · exact .inl rfl
        · exact .inr ⟨.inr h, ne_of_gt (hq p h)⟩
      · rintro (rfl | ⟨rfl | h, hne⟩)
        · exact .inl rfl
        · exact absurd rfl hne
        · exact .inr h
    · rename_i hnlt hne
      rw [List.mem_cons, ih hs, List.mem_cons]
      constructor
      · rintro (rfl | h | h)
        · exact .inr ⟨.inl rfl, Ne.symm hne⟩
        · exact .inl h
        · exact .inr ⟨.inr h.1, h.2⟩
      · rintro (h | ⟨rfl | h, hpk⟩)
        · exact .inr (.inl h)
        · exact .inl rfl
        · exact .inr (.inr ⟨h, hpk⟩)

theorem sorted_insert (hs : Sorted l) : Sorted (insert key v l) := by
  induction l with
  | nil => exact List.pairwise_singleton _ _
  | cons q rest ih =>
    obtain ⟨hq, hs'⟩ := List.pairwise_cons.1 hs
    unfold insert
    split
    · rename_i hlt
      refine List.pairwise_cons.2 ⟨fun r hr => ?_, hs⟩
      rcases List.mem_cons.1 hr with rfl | hr
      · exact hlt
      · exact hlt.trans (hq r hr)
    split
    · rename_i _ heq
      exact List.pairwise_cons.2 ⟨fun r hr => heq ▸ hq r hr, hs'⟩
    · rename_i hnlt hne
      have hgt : q.1 < key := lt_of_le_of_ne (not_lt.1 hnlt) (Ne.symm hne)
      refine List.pairwise_cons.2 ⟨fun r hr => ?_, ih hs'⟩
      rcases (mem_insert hs').1 hr with rfl | ⟨hr, -⟩
      · exact hgt
      · exact hq r hr

theorem insert_of_mem (hs : Sorted l) (hk : key ∈ l.map Prod.fst) :
    insert key v l = l.map fun q => if q.1 = key then (key, v) else q := by
  induction l with
  | nil => simp at hk
  | cons q rest ih =>
    obtain ⟨hq, hs⟩ := List.pairwise_cons.1 hs
    -- the key is the head's or above it
    have hge : q.1 ≤ key := by
      rcases List.mem_cons.1 hk with h | h
      · exact le_of_eq h.symm
      · obtain ⟨r, hr, rfl⟩ := List.mem_map.1 h
        exact le_of_lt (hq r hr)
    unfold insert
    rw [if_neg (not_lt.2 hge)]
    by_cases he : key = q.1
    · -- the entries after the head have larger keys and stay
      rw [if_pos he, List.map_cons, if_pos he.symm]
      congr 1
      refine ((List.map_congr_left fun r hr => ?_).trans (List.map_id rest)).symm
      rw [if_neg (ne_of_gt (he ▸ hq r hr)), id]
    · have hk' : key ∈ rest.map Prod.fst := by
        rcases List.mem_cons.1 hk with h | h
        · exact absurd h he
        · exact h
      rw [if_neg he, List.map_cons, if_neg (Ne.symm he), ih hs hk']

theorem mem_erase {p : κ × ν} : p ∈ erase key l ↔ p ∈ l ∧ p.1 ≠ key := by
  simp [erase]

theorem sorted_erase (hs : Sorted l) : Sorted (erase key l) :=
  hs.filter _

theorem eq_of_key_eq (hs : Sorted l) {p q : κ × ν} (hp : p ∈ l) (hq : q ∈ l) (h : p.1 = q.1) :
    p = q := by
  induction l with
  | nil => cases hp
  | cons r rest ih =>
    obtain ⟨hr, hs⟩ := List.pairwise_cons.1 hs
    rcases List.mem_cons.1 hp with hp | hp
    · rcases List.mem_cons.1 hq with hq | hq
      · rw [hp, hq]
      · exact absurd (hp ▸ h) (ne_of_lt (hr q hq))
    · rcases List.mem_cons.1 hq with hq | hq
      · exact absurd (hq ▸ h.symm) (ne_of_lt (hr p hp))
      · exact ih hs hp hq

theorem map_update_self (hs : Sorted l) (hmem : (key, v) ∈ l) :
    (l.map fun q => if q.1 = key then (key, v) else q) = l := by
  refine (List.map_congr_left fun q hq => ?_).trans (List.map_id l)
  by_cases hk : q.1 = key
  · rw [if_pos hk, id, eq_of_key_eq hs hmem hq hk.symm]
  · rw [if_neg hk, id]

theorem sorted_map {f : κ × ν → κ × ν} (hs : Sorted l) (hf : ∀ q ∈ l, (f q).1 = q.1) :
    Sorted (l.map f) :=
  List.pairwise_map.2 (hs.imp_of_mem fun ha hb h => by rw [hf _ ha, hf _ hb]; exact h)

section lookup
variable [BEq κ] [LawfulBEq κ]

theorem lookup_eq_none_iff : l.lookup key = none ↔ ∀ p ∈ l, p.1 ≠ key := by
  induction l with
  | nil => simp
  | cons q rest ih =>
    by_cases hk : key = q.1
    · subst hk
      simp [List.lookup]
    · simp [List.lookup, beq_false_of_ne hk, ih, Ne.symm hk]

theorem mem_of_lookup_eq_some (h : l.lookup key = some v) : (key, v) ∈ l := by
  induction l with
  | nil => simp at h
  | cons q rest ih =>
    obtain ⟨k, w⟩ := q
    by_cases hk : key = k
    · subst hk
      simp only [List.lookup, beq_self_eq_true, Option.some.injEq] at h
      rw [h]
      exact List.mem_cons_self
    · simp only [List.lookup, beq_false_of_ne hk] at h
      exact List.mem_cons_of_mem _ (ih h)

theorem lookup_eq_some_iff (hs : Sorted l) : l.lookup key = some v ↔ (key, v) ∈ l := by
  induction l with
  | nil => simp
  | cons q rest ih =>
    obtain ⟨k, w⟩ := q
    obtain ⟨hq, hs⟩ := List.pairwise_cons.1 hs
    by_cases hk : key = k
    · subst hk
      -- no entry after the head has the head's key
      have hnot : (key, v) ∉ rest := fun h => lt_irrefl key (hq (key, v) h)
      simp [List.lookup, hnot, eq_comm]
    · simp [List.lookup, beq_false_of_ne hk, ih hs, hk]

theorem lookup_insert (hs : Sorted l) (k : κ) :
    (insert key v l).lookup k = if k = key then some v else l.lookup k := by
  have hs' : Sorted (insert key v l) := sorted_insert hs
  split
  · next hk =>
    subst hk
    exact (lookup_eq_some_iff hs').2 ((mem_insert hs).2 (.inl rfl))
  · next hk =>
    cases h : l.lookup k with
    | none =>
      rw [lookup_eq_none_iff] at h ⊢
      intro p hp hpk
      rcases (mem_insert hs).1 hp with rfl | ⟨hp, -⟩
      · exact hk hpk.symm
      · exact h p hp hpk
    | some w =>
      exact (lookup_eq_some_iff hs').2 ((mem_insert hs).2 (.inr ⟨(lookup_eq_some_iff hs).1 h, hk⟩))

theorem lookup_erase (k : κ) :
    (erase key l).lookup k = if k = key then none else l.lookup k := by
  induction l with
  | nil => simp [erase]
  | cons q rest ih =>
    by_cases hq : q.1 = key
    · have hrest : erase key (q :: rest) = erase key rest := by simp [erase, hq]
      rw [hrest, ih]
      split
      · rfl
      · next hk => simp [List.lookup, beq_false_of_ne (fun h => hk (h.trans hq))]
    · have hcons : erase key (q :: rest) = q :: erase key rest := by simp [erase, hq]
      rw [hcons]
      by_cases hk : k = q.1
      · subst hk
        simp [List.lookup, hq]
      · simp [List.lookup, beq_false_of_ne hk, ih]

end lookup

/-! ## Inverse indexes

A store keeps beside a map from keys to records an index from an image of each record back to its
key: `idx (f v) = some k` for the entry `(k, v)`. The index is exact when it holds these entries and
no others; then no two entries have one image, and the writes that keep a map and its index in step
keep the index exact. -/

section index
variable {β : Type} {f : ν → β} {idx : β → Option κ}

/-- `idx` gives each image under `f` of an entry of `l` the entry's key, and nothing else. -/
def IsIndex (f : ν → β) (l : List (κ × ν)) (idx : β → Option κ) : Prop :=
  ∀ b k, idx b = some k ↔ ∃ v, (k, v) ∈ l ∧ f v = b

omit [LinearOrder κ] in
theorem IsIndex.eq_none_iff (h : IsIndex f l idx) {b : β} :
    idx b = none ↔ ∀ p ∈ l, f p.2 ≠ b := by
  constructor
  · intro hb p hp hfp
    have := (h b p.1).2 ⟨p.2, hp, hfp⟩
    rw [hb] at this
    cases this
  · intro hall
    cases hb : idx b with
    | none => rfl
    | some k =>
      obtain ⟨w, hw, hfw⟩ := (h b k).1 hb
      exact absurd hfw (hall _ hw)

theorem IsIndex.injective (h : IsIndex f l idx) (hs : Sorted l) {p q : κ × ν} (hp : p ∈ l)
    (hq : q ∈ l) (hf : f p.2 = f q.2) : p = q := by
  have hpk := (h (f p.2) p.1).2 ⟨p.2, hp, rfl⟩
  have hqk := (h (f p.2) q.1).2 ⟨q.2, hq, hf.symm⟩
  rw [hpk] at hqk
  exact eq_of_key_eq hs hp hq (Option.some.inj hqk)

omit [LinearOrder κ] in
theorem isIndex_nil : IsIndex f ([] : List (κ × ν)) fun _ => none := by
  intro b k
  simp

variable [DecidableEq β]

theorem IsIndex.insert (h : IsIndex f l idx) (hs : Sorted l) (hk : ∀ p ∈ l, p.1 ≠ key)
    (hb : ∀ p ∈ l, f p.2 ≠ f v) :
    IsIndex f (insert key v l) (Function.update idx (f v) (some key)) := by
  intro b k
  simp only [mem_insert hs, Prod.mk.injEq]
  by_cases hbv : b = f v
  · subst hbv
    rw [Function.update_self, Option.some.injEq]
    constructor
    · rintro rfl
      exact ⟨v, .inl ⟨rfl, rfl⟩, rfl⟩
    · rintro ⟨w, ⟨rfl, rfl⟩ | ⟨hw, -⟩, hfw⟩
      · rfl
      · exact absurd hfw (hb _ hw)
  · rw [Function.update_of_ne hbv, h b k]
    constructor
    · rintro ⟨w, hw, rfl⟩
      exact ⟨w, .inr ⟨hw, hk _ hw⟩, rfl⟩
    · rintro ⟨w, ⟨rfl, rfl⟩ | ⟨hw, -⟩, hfw⟩
      · exact absurd hfw.symm hbv
      · exact ⟨w, hw, hfw⟩

theorem IsIndex.erase (h : IsIndex f l idx) (hs : Sorted l) (hmem : (key, v) ∈ l) :
    IsIndex f (erase key l) (Function.update idx (f v) none) := by
  intro b k
  simp only [mem_erase]
  by_cases hbv : b = f v
  · subst hbv
    rw [Function.update_self]
    -- the one entry with the image of `v` is `v`'s, and it is gone
    refine ⟨fun hnone => (by cases hnone), ?_⟩
    rintro ⟨w, ⟨hw, hk⟩, hfw⟩
    exact absurd (congrArg Prod.fst (h.injective hs hw hmem hfw)) hk
  · rw [Function.update_of_ne hbv, h b k]
    constructor
    · rintro ⟨w, hw, rfl⟩
      exact ⟨w, ⟨hw, fun hk => hbv (congrArg (fun p => f p.2) (eq_of_key_eq hs hw hmem hk))⟩, rfl⟩
    · rintro ⟨w, ⟨hw, -⟩, hfw⟩
      exact ⟨w, hw, hfw⟩

end index

end OrderedMap
