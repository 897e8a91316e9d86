import Mathlib.Data.List.Sort
import Mezod.Lib.Sorted

/-!
# What a Go program leaves to its runtime

The pieces of Go semantics that the models of this development share, stated once and named so
that nothing here refers to a particular program.

A call either returns or panics, and a returned `error` is a value like any other: `GoError`
keeps the two failures apart. A call that only reads is an `Except GoError`; a call that writes a
store in place is an `EStateM GoError σ`, whose error result carries the store as the failing call
left it, writes made before the error included. `range` over a map visits its entries in an order
the runtime picks afresh for every loop, and `slices.SortFunc` is not stable: `Runtime` holds
both choices, together with the only facts a program may rely on.
-/

namespace Go

/-- How a Go call fails: it returns a non-nil `error`, or it panics. -/
inductive GoError where
  | error (msg : String)
  | panic (msg : String)
  deriving DecidableEq, Repr

namespace GoError

/-- The failure is a returned error, not a panic. -/
def IsError : GoError → Prop
  | error _ => True
  | panic _ => False

instance : DecidablePred IsError := fun e => by cases e <;> unfold IsError <;> infer_instance

end GoError

/-! ## Read-only calls -/

section Except
variable {ε α β : Type}

@[simp] theorem except_bind_ok (a : α) (f : α → Except ε β) :
    (Except.ok a >>= f) = f a := rfl

@[simp] theorem except_bind_error (e : ε) (f : α → Except ε β) :
    (Except.error e >>= f : Except ε β) = Except.error e := rfl

@[simp] theorem ite_throw_eq_ok {c : Prop} [Decidable c] {e : ε} {a : Unit} :
    (if c then throw e else pure () : Except ε Unit) = .ok a ↔ ¬c := by
  split
  · rename_i hc; exact ⟨(fun h => by cases h), fun h => absurd hc h⟩
  · rename_i hc; exact ⟨fun _ => hc, fun _ => rfl⟩

theorem except_bind_eq_ok {x : Except ε α} {f : α → Except ε β} {b : β} :
    (x >>= f) = Except.ok b ↔ ∃ a, x = Except.ok a ∧ f a = Except.ok b := by
  cases x with
  | error e => simp
  | ok a => simp

theorem except_isOk_iff {x : Except ε α} : x.isOk = true ↔ ∃ a, x = Except.ok a := by
  cases x with
  | error e => simp [Except.isOk, Except.toBool]
  | ok a => simp [Except.isOk, Except.toBool]

@[simp] theorem ite_throw_eq_error {c : Prop} [Decidable c] {e e' : ε} :
    (if c then throw e else pure () : Except ε Unit) = .error e' ↔ c ∧ e = e' := by
  split
  · rename_i hc; exact ⟨fun h => ⟨hc, by cases h; rfl⟩, fun h => by rw [h.2]; rfl⟩
  · rename_i hc; exact ⟨fun h => (by cases h), fun h => absurd h.1 hc⟩

theorem except_bind_eq_error {x : Except ε α} {f : α → Except ε β} {e : ε} :
    (x >>= f) = Except.error e ↔ x = Except.error e ∨ ∃ a, x = Except.ok a ∧ f a = Except.error e := by
  cases x with
  | error e => simp
  | ok a => simp

theorem mapError_eq_ok {ε' : Type} {x : Except ε α} {f : ε → ε'} {a : α} :
    x.mapError f = .ok a ↔ x = .ok a := by
  cases x <;> simp [Except.mapError]

theorem map_eq_ok {f : α → β} {x : Except ε α} {b : β} :
    x.map f = .ok b ↔ ∃ a, x = .ok a ∧ f a = b := by
  cases x <;> simp [Except.map]

theorem mapError_eq_error {ε' : Type} {x : Except ε α} {f : ε → ε'} {e' : ε'} :
    x.mapError f = .error e' ↔ ∃ e, x = .error e ∧ f e = e' := by
  cases x <;> simp [Except.mapError]

theorem append_ne_of_length_lt {p q : String} (x : String) (h : q.length < p.length) :
    p ++ x ≠ q := fun he => by
  have hlen := congrArg String.length he
  rw [String.length_append] at hlen
  omega

theorem append_ne_of_length_lt' {p q : String} (x : String) (h : q.length < p.length) :
    x ++ p ≠ q := fun he => by
  have hlen := congrArg String.length he
  rw [String.length_append] at hlen
  omega

theorem mapM_cons_eq_ok {f : α → Except ε β} {a : α} {l : List α} {ys : List β} :
    (a :: l).mapM f = .ok ys ↔ ∃ y ys', f a = .ok y ∧ l.mapM f = .ok ys' ∧ ys = y :: ys' := by
  rw [List.mapM_cons]
  cases f a with
  | error e => simp
  | ok y =>
    cases hl : l.mapM f with
    | error e => simp
    | ok ys' =>
      simp only [except_bind_ok, pure, Except.pure, Except.ok.injEq, exists_and_left,
        exists_eq_left']
      exact eq_comm

theorem mapM_eq_ok_of_forall {f : α → Except ε β} :
    ∀ {l : List α}, (∀ a ∈ l, ∃ b, f a = .ok b) → ∃ ys, l.mapM f = .ok ys
  | [], _ => ⟨[], rfl⟩
  | a :: l, h => by
    obtain ⟨y, hy⟩ := h a List.mem_cons_self
    obtain ⟨ys, hys⟩ := mapM_eq_ok_of_forall fun b hb => h b (List.mem_cons_of_mem a hb)
    exact ⟨y :: ys, mapM_cons_eq_ok.2 ⟨y, ys, hy, hys, rfl⟩⟩

/-- A loop of checks returned exactly when every check passed, in whatever order it ran them. -/
theorem forM_eq_ok_iff {f : α → Except ε PUnit} :
    ∀ {l : List α}, l.forM f = .ok () ↔ ∀ a ∈ l, f a = .ok ()
  | [] => by simp; rfl
  | a :: l => by
    show (f a >>= fun _ => l.forM f) = _ ↔ _
    cases ha : f a with
    | error e =>
      have hne : (Except.error e : Except ε PUnit) ≠ .ok () := fun h => by cases h
      simp only [except_bind_error, List.mem_cons, forall_eq_or_imp, ha]
      exact iff_of_false (fun h => by cases h) fun h => hne h.1
    | ok u =>
      rw [except_bind_ok]
      constructor
      · intro h x hx
        rcases List.mem_cons.1 hx with rfl | hx
        · exact ha
        · exact forM_eq_ok_iff.1 h x hx
      · intro h
        exact forM_eq_ok_iff.2 fun x hx => h x (List.mem_cons_of_mem a hx)

/-- The invariant rule of a fold that may fail: what every step keeps holds where it returns. -/
theorem foldlM_inv {γ : Type*} {f : β → γ → Except ε β} (I : β → Prop) :
    ∀ {l : List γ}, (∀ b a b', a ∈ l → I b → f b a = .ok b' → I b') →
      ∀ {b b'}, I b → l.foldlM f b = .ok b' → I b'
  | [], _, _, _, hb, h => by
    cases h
    exact hb
  | a :: l, hstep, b, b', hb, h => by
    rw [List.foldlM_cons] at h
    obtain ⟨b₁, h₁, h⟩ := except_bind_eq_ok.1 h
    exact foldlM_inv I (fun c x c' hx => hstep c x c' (List.mem_cons_of_mem a hx))
      (hstep b a b₁ List.mem_cons_self hb h₁) h

/-- `fmt.Errorf(context + ": %w", err)` on a returned error; a panic goes through as it is. -/
def withContext (context : String) : Except GoError α → Except GoError α
  | .error (.error msg) => .error (.error (context ++ ": " ++ msg))
  | r => r

@[simp] theorem withContext_ok (context : String) (a : α) :
    withContext context (.ok a : Except GoError α) = .ok a := rfl

theorem withContext_eq_ok {context : String} {r : Except GoError α} {a : α} :
    withContext context r = .ok a ↔ r = .ok a := by
  unfold withContext
  split <;> simp_all

/-- `withContext` around a call on a state: the state the call left stays as it is. -/
def withContextM {σ : Type} (context : String) (x : EStateM GoError σ α) : EStateM GoError σ α :=
  fun s => match x s with
    | .error (.error msg) s' => .error (.error (context ++ ": " ++ msg)) s'
    | r => r

section withContextM
variable {σ : Type} {context : String} {x : EStateM GoError σ α} {s s' : σ}

theorem run_withContextM_of_ok {a : α} (h : x.run s = .ok a s') :
    (withContextM context x).run s = .ok a s' := by
  change x s = _ at h
  change (match x s with | .error (.error msg) s' => _ | r => r) = _
  rw [h]

theorem run_withContextM_of_error {msg : String} (h : x.run s = .error (.error msg) s') :
    (withContextM context x).run s = .error (.error (context ++ ": " ++ msg)) s' := by
  change x s = _ at h
  change (match x s with | .error (.error msg) s' => _ | r => r) = _
  rw [h]

theorem run_withContextM_congr {y : EStateM GoError σ α} {s₂ : σ} (h : x.run s = y.run s₂) :
    (withContextM context x).run s = (withContextM context y).run s₂ := by
  change x s = y s₂ at h
  change (match x s with | .error (.error msg) s' => _ | r => r) =
    (match y s₂ with | .error (.error msg) s' => _ | r => r)
  rw [h]

theorem run_withContextM_eq_ok {a : α} :
    (withContextM context x).run s = .ok a s' ↔ x.run s = .ok a s' := by
  refine ⟨fun h => ?_, run_withContextM_of_ok⟩
  change (match x s with | .error (.error msg) s' => _ | r => r) = _ at h
  change x s = _
  split at h
  · cases h
  · exact h

end withContextM

/-- Two runs agree: they fail in the same way, or their results are related by `r`. -/
def SameOutcome (r : α → α → Prop) : Except GoError α → Except GoError α → Prop
  | .error e, .error e' => e = e'
  | .ok a, .ok a' => r a a'
  | _, _ => False

theorem SameOutcome.exists_ok {r : α → α → Prop} {a : α} {x : Except GoError α}
    (h : SameOutcome r (.ok a) x) : ∃ b, x = .ok b ∧ r a b := by
  cases x with
  | error e => exact h.elim
  | ok b => exact ⟨b, rfl, h⟩

end Except

/-! ## Wire formats -/

/-- gogoproto's `Marshal` and `Unmarshal` of one message type. -/
structure Proto (α : Type) where
  marshal : α → Except String (List UInt8)
  unmarshal : List UInt8 → Except String α

/-- What `Marshal` produces, `Unmarshal` reads back. -/
def Proto.RoundTrips {α : Type} (p : Proto α) : Prop :=
  ∀ a bytes, p.marshal a = .ok bytes → p.unmarshal bytes = .ok a

/-- What `Marshal` produces of a value of `D`, `Unmarshal` reads back: the round trip of a codec
that writes some values in the form of others, or writes what it refuses to read. -/
def Proto.RoundTripsOn {α : Type} (p : Proto α) (D : α → Prop) : Prop :=
  ∀ a, D a → ∀ bytes, p.marshal a = .ok bytes → p.unmarshal bytes = .ok a

/-! ## `math/big` -/

/-- `(*big.Int).Bytes()` of a value of absolute value `n`: big-endian, with no leading zero
byte, and empty for zero. -/
def bigEndianBytes (n : Nat) : List UInt8 :=
  ((Nat.digits 256 n).map Nat.toUInt8).reverse

theorem bigEndianBytes_injective : Function.Injective bigEndianBytes := by
  intro a b h
  have h' : (Nat.digits 256 a).map Nat.toUInt8 = (Nat.digits 256 b).map Nat.toUInt8 :=
    List.reverse_injective h
  have hback : ∀ n, ((Nat.digits 256 n).map Nat.toUInt8).map UInt8.toNat = Nat.digits 256 n := by
    intro n
    rw [List.map_map]
    conv_rhs => rw [← List.map_id (Nat.digits 256 n)]
    exact List.map_congr_left fun d hd => by
      have hlt := Nat.digits_lt_base (by norm_num) hd
      simp [UInt8.toNat_ofNat', Nat.mod_eq_of_lt hlt]
  exact Nat.digits.injective 256 (by rw [← hback a, ← hback b, h'])

/-- `new(big.Int).Div(x, y)`: Euclidean division, which panics on a zero divisor. -/
def bigDiv (x y : Int) : Except GoError Int :=
  if y = 0 then .error (.panic "division by zero") else .ok (x / y)

@[simp] theorem bigDiv_zero (x : Int) : bigDiv x 0 = .error (.panic "division by zero") := rfl

theorem bigDiv_of_ne_zero {x y : Int} (h : y ≠ 0) : bigDiv x y = .ok (x / y) := if_neg h

/-- `(*big.Int).IsUint64()`. -/
def isUint64 (x : Int) : Bool := decide (0 ≤ x ∧ x < 2 ^ 64)

/-- `(*big.Int).Int64()`: the low 64 bits of the absolute value as an `int64`, negated for a
negative value. A value outside `int64` wraps. -/
def bigInt64 (x : Int) : Int64 :=
  let v := (UInt64.ofNat x.natAbs).toInt64
  if x < 0 then -v else v

theorem toInt_bigInt64 (n : Nat) : (bigInt64 n).toInt = (n : Int).bmod (2 ^ 64) := by
  have h : (UInt64.ofNat n).toNat = n % 2 ^ 64 := by simp
  rw [bigInt64, if_neg (by omega), Int.natAbs_natCast, Int64.toInt, UInt64.toBitVec_toInt64,
    BitVec.toInt_eq_toNat_bmod, UInt64.toNat_toBitVec, h, Int.natCast_mod]
  exact Int.emod_bmod _ _

/-- `(*big.Int).SetBytes`: big-endian bytes as a value. -/
def bigSetBytes (b : List UInt8) : Nat :=
  b.foldl (fun acc x => acc * 256 + x.toNat) 0

theorem foldl_bigSetBytes (acc : Nat) (b : List UInt8) :
    b.foldl (fun acc x => acc * 256 + x.toNat) acc = acc * 256 ^ b.length + bigSetBytes b := by
  induction b generalizing acc with
  | nil => simp [bigSetBytes]
  | cons x b ih =>
    simp only [bigSetBytes, List.foldl_cons, List.length_cons] at ih ⊢
    rw [ih, ih (0 * 256 + x.toNat)]
    ring

theorem bigSetBytes_append (a b : List UInt8) :
    bigSetBytes (a ++ b) = bigSetBytes a * 256 ^ b.length + bigSetBytes b := by
  rw [bigSetBytes, List.foldl_append, foldl_bigSetBytes]
  rfl

theorem bigSetBytes_lt (b : List UInt8) : bigSetBytes b < 256 ^ b.length := by
  induction b using List.reverseRecOn with
  | nil => simp [bigSetBytes]
  | append_singleton b x ih =>
    rw [bigSetBytes_append, List.length_append, List.length_singleton, pow_succ]
    have hx : x.toNat < 256 := x.toNat_lt
    have hlast : bigSetBytes [x] = x.toNat := by simp [bigSetBytes]
    rw [hlast]
    omega

theorem bigSetBytes_replicate_append (k : Nat) (b : List UInt8) :
    bigSetBytes (List.replicate k 0 ++ b) = bigSetBytes b := by
  have hzero : bigSetBytes (List.replicate k 0) = 0 := by
    induction k with
    | zero => rfl
    | succ k ih =>
      rw [List.replicate_succ', bigSetBytes_append, ih]
      rfl
  rw [bigSetBytes_append, hzero, Nat.zero_mul, Nat.zero_add]

/-- `SetBytes` reads back what `Bytes` writes. -/
theorem bigSetBytes_bigEndianBytes (n : Nat) : bigSetBytes (bigEndianBytes n) = n := by
  -- the reversed digits are read most significant first
  have h : ∀ l : List Nat, (∀ d ∈ l, d < 256) →
      bigSetBytes (l.map Nat.toUInt8).reverse = Nat.ofDigits 256 l := by
    intro l hl
    induction l with
    | nil => rfl
    | cons d l ih =>
      rw [List.map_cons, List.reverse_cons, bigSetBytes_append, ih fun e he => hl e (by simp [he]),
        Nat.ofDigits_cons]
      have hd : d < 256 := hl d (by simp)
      simp [bigSetBytes, Nat.mod_eq_of_lt hd]
      ring
  rw [bigEndianBytes, h _ fun d hd => Nat.digits_lt_base (by norm_num) hd, Nat.ofDigits_digits]

theorem length_bigEndianBytes_le {n k : Nat} (h : n < 256 ^ k) : (bigEndianBytes n).length ≤ k := by
  rw [bigEndianBytes, List.length_reverse, List.length_map]
  exact (Nat.digits_length_le_iff (by norm_num) n).2 h

theorem bigEndianBytes_ne_nil {n : Nat} (h : n ≠ 0) : bigEndianBytes n ≠ [] := by
  simp [bigEndianBytes, Nat.digits_ne_nil_iff_ne_zero.2 h]

/-! ## `encoding/hex` -/

/-- A lower-case hex digit. -/
def hexDigit (n : Nat) : Char :=
  if n < 10 then Char.ofNat (48 + n) else Char.ofNat (87 + n)

/-- `hex.EncodeToString`: two lower-case digits a byte. -/
def hexEncodeToString (bytes : List UInt8) : String :=
  String.join (bytes.map fun b => String.ofList [hexDigit (b.toNat / 16), hexDigit (b.toNat % 16)])

/-! ## `slices` -/

section slices
variable {α : Type}

/-- `slices.CompactFunc`: an element that `eq` finds equal to the one before it in the input is
dropped, so that of each run of equal elements the first stays. -/
def compactFunc (eq : α → α → Bool) : List α → List α
  | [] => []
  | a :: rest => a :: compactAfter eq a rest
where
  /-- The elements after `prev`, each dropped when it equals the one before it. -/
  compactAfter (eq : α → α → Bool) (prev : α) : List α → List α
    | [] => []
    | b :: rest => if eq b prev then compactAfter eq b rest else b :: compactAfter eq b rest

section lawful
variable [BEq α]

theorem mem_of_mem_compactAfter {prev x : α} :
    ∀ {l : List α}, x ∈ compactFunc.compactAfter (· == ·) prev l → x ∈ l
  | [], h => h
  | b :: rest, h => by
    unfold compactFunc.compactAfter at h
    split at h
    · exact List.mem_cons_of_mem b (mem_of_mem_compactAfter h)
    · rcases List.mem_cons.1 h with rfl | h
      · exact List.mem_cons_self
      · exact List.mem_cons_of_mem _ (mem_of_mem_compactAfter h)

variable [LawfulBEq α]

theorem mem_compactAfter_of_mem {prev x : α} :
    ∀ {l : List α}, x ∈ l → x = prev ∨ x ∈ compactFunc.compactAfter (· == ·) prev l
  | [], h => absurd h List.not_mem_nil
  | b :: rest, h => by
    -- the first copy of `x` is kept unless it follows an equal element
    have hkeep : x = b → x = prev ∨ x ∈ compactFunc.compactAfter (· == ·) prev (b :: rest) := by
      rintro rfl
      unfold compactFunc.compactAfter
      split
      · exact .inl (beq_iff_eq.1 ‹_›)
      · exact .inr List.mem_cons_self
    rcases List.mem_cons.1 h with rfl | h
    · exact hkeep rfl
    rcases (mem_compactAfter_of_mem h : x = b ∨ x ∈ compactFunc.compactAfter (· == ·) b rest)
      with rfl | h
    · exact hkeep rfl
    · right
      unfold compactFunc.compactAfter
      split
      · exact h
      · exact List.mem_cons_of_mem _ h

@[simp] theorem mem_compactFunc {x : α} {l : List α} : x ∈ compactFunc (· == ·) l ↔ x ∈ l := by
  cases l with
  | nil => rfl
  | cons a rest =>
    simp only [compactFunc, List.mem_cons]
    constructor
    · rintro (rfl | h)
      · exact .inl rfl
      · exact .inr (mem_of_mem_compactAfter h)
    · rintro (rfl | h)
      · exact .inl rfl
      · exact mem_compactAfter_of_mem h

end lawful

section order
variable [LinearOrder α] [BEq α] [LawfulBEq α]

theorem compactAfter_pairwise_lt :
    ∀ {prev : α} {l : List α}, (prev :: l).Pairwise (· ≤ ·) →
      (∀ x ∈ compactFunc.compactAfter (· == ·) prev l, prev < x) ∧
        (compactFunc.compactAfter (· == ·) prev l).Pairwise (· < ·)
  | _, [], _ => ⟨fun _ h => absurd h List.not_mem_nil, List.Pairwise.nil⟩
  | prev, b :: rest, h => by
    obtain ⟨hprev, hs⟩ := List.pairwise_cons.1 h
    obtain ⟨hb, ih⟩ := compactAfter_pairwise_lt hs
    have hle : prev ≤ b := hprev b List.mem_cons_self
    unfold compactFunc.compactAfter
    split
    · rename_i heq
      obtain rfl := beq_iff_eq.1 heq
      exact ⟨hb, ih⟩
    · rename_i hne
      have hlt : prev < b := lt_of_le_of_ne hle fun he => hne (beq_iff_eq.2 he.symm)
      refine ⟨fun x hx => ?_, List.pairwise_cons.2 ⟨hb, ih⟩⟩
      rcases List.mem_cons.1 hx with rfl | hx
      · exact hlt
      · exact hlt.trans (hb x hx)

theorem compactAfter_of_pairwise_lt :
    ∀ {prev : α} {l : List α}, (prev :: l).Pairwise (· < ·) →
      compactFunc.compactAfter (· == ·) prev l = l
  | _, [], _ => rfl
  | prev, b :: rest, h => by
    obtain ⟨hprev, hs⟩ := List.pairwise_cons.1 h
    have hne : (b == prev) = false := beq_false_of_ne (ne_of_gt (hprev b List.mem_cons_self))
    simp only [compactFunc.compactAfter, hne, Bool.false_eq_true, if_false,
      compactAfter_of_pairwise_lt hs]

theorem compactFunc_of_pairwise_lt {l : List α} (h : l.Pairwise (· < ·)) :
    compactFunc (· == ·) l = l := by
  cases l with
  | nil => rfl
  | cons a rest => simp only [compactFunc, compactAfter_of_pairwise_lt h]

theorem pairwise_lt_compactFunc {l : List α} (h : l.Pairwise (· ≤ ·)) :
    (compactFunc (· == ·) l).Pairwise (· < ·) := by
  cases l with
  | nil => exact List.Pairwise.nil
  | cons a rest =>
    obtain ⟨ha, hs⟩ := compactAfter_pairwise_lt h
    exact List.pairwise_cons.2 ⟨ha, hs⟩

end order

section sort
variable [LinearOrder α]

/-- `slices.SortFunc` with a comparator under which only equal elements compare equal, such as
`bytes.Compare`: whatever order the unstable sort leaves equal elements in, the result is the
sorted permutation. -/
def sortFunc (l : List α) : List α :=
  l.mergeSort fun a b => decide (a ≤ b)

@[simp] theorem mem_sortFunc {x : α} {l : List α} : x ∈ sortFunc l ↔ x ∈ l :=
  List.mem_mergeSort

theorem pairwise_sortFunc (l : List α) : (sortFunc l).Pairwise (· ≤ ·) := by
  have h := @List.pairwise_mergeSort _ (fun a b : α => decide (a ≤ b))
    (fun a b c hab hbc => by simp only [decide_eq_true_eq] at *; exact le_trans hab hbc)
    (fun a b => by simp only [Bool.or_eq_true, decide_eq_true_eq]; exact le_total a b) l
  simpa [sortFunc] using h

theorem sortFunc_of_pairwise {l : List α} (h : l.Pairwise (· ≤ ·)) : sortFunc l = l :=
  List.mergeSort_of_pairwise (by simpa using h)

end sort

end slices

/-! ## The runtime's choices -/

/-- The choices a Go program leaves open. `rangeOrder` is the order of one `range` loop over a
map whose entries, in insertion order, are the given list; `sortFunc key` is
`slices.SortFunc` with the comparator `cmp(a, b) = compare(key a, key b)`, which may arrange the
elements of equal key in any way. -/
structure Runtime where
  rangeOrder : {α : Type} → List α → List α
  rangeOrder_perm : ∀ {α : Type} (l : List α), (rangeOrder l).Perm l
  sortFunc : {α : Type} → (α → Int) → List α → List α
  sortFunc_perm : ∀ {α : Type} (key : α → Int) (l : List α), (sortFunc key l).Perm l
  sortFunc_sorted : ∀ {α : Type} (key : α → Int) (l : List α),
    (sortFunc key l).Pairwise fun a b => key a ≤ key b

namespace Runtime

/-- A runtime that visits maps in insertion order and sorts by merge sort. -/
def insertionOrder : Runtime where
  rangeOrder l := l
  rangeOrder_perm l := List.Perm.refl l
  sortFunc key l := l.mergeSort fun a b => decide (key a ≤ key b)
  sortFunc_perm key l := List.mergeSort_perm l _
  sortFunc_sorted key l := by
    have h : (l.mergeSort fun a b => decide (key a ≤ key b)).Pairwise
        fun a b => decide (key a ≤ key b) := List.pairwise_mergeSort
      (fun a b c hab hbc => by simp only [decide_eq_true_eq] at *; omega)
      (fun a b => by simp only [Bool.or_eq_true, decide_eq_true_eq]; omega) l
    simpa using h

/-- `range` over a map whose entries may live in any universe: the runtime orders the positions
of the entries. -/
def rangeOrderEntries (rt : Runtime) {α : Type*} (l : List α) : List α :=
  (rt.rangeOrder (List.finRange l.length)).map l.get

theorem rangeOrderEntries_perm (rt : Runtime) {α : Type*} (l : List α) :
    (rt.rangeOrderEntries l).Perm l := by
  have h := (rt.rangeOrder_perm (List.finRange l.length)).map l.get
  rwa [List.map_get_finRange] at h

/-- Sorting a list in which no key repeats gives its strictly sorted permutation. -/
theorem sortFunc_pairwise_lt (rt : Runtime) {α : Type} (key : α → Int) {l : List α}
    (hnd : (l.map key).Nodup) : (rt.sortFunc key l).Pairwise fun a b => key a < key b :=
  KeySorted.pairwise_lt_of_nodup (rt.sortFunc_sorted key l)
    (((rt.sortFunc_perm key l).map key).nodup_iff.2 hnd)

end Runtime

end Go
