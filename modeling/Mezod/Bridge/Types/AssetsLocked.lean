import Mezod.Lib.Go
import Mezod.Lib.Hex
import Mathlib.Data.List.Range

/-!
# AssetsLocked events (`x/bridge/types/assets_locked.go`)

An `AssetsLockedEvent` reports funds locked in the bridge contract on the source chain. Its
sequence and amount are `math.Int`s, which may be nil: `MathInt` keeps that case, since
`IsValid` is where the source rejects it. The address helpers come from the Cosmos SDK and from
go-ethereum, outside this repository, and enter as the fields of an `AddressCodec`.

`equal` compares the token through `TokenBytes`, that is after `common.HexToAddress`, which
accepts more than `IsHexAddress` does: two events can be `equal` while only one of them is
valid.
-/

namespace Mezod
open Go

/-- A byte slice. -/
abbrev Bytes := List UInt8

/-- A `cosmossdk.io/math.Int`: an integer, or nil. -/
abbrev MathInt := Option Int

/-- The address helpers the bridge types call, from the Cosmos SDK and go-ethereum. -/
structure AddressCodec where
  /-- `sdk.AccAddressFromBech32`: the address bytes, or none when decoding fails. -/
  accAddressFromBech32 : String → Option Bytes
  /-- `common.IsHexAddress`: an optional `0x` and exactly forty hex digits. -/
  isHexAddress : String → Bool
  /-- `common.HexToAddress(s).Bytes()`: total, it crops longer input from the left. -/
  hexToAddress : String → Bytes
  /-- `common.BytesToAddress(b).Hex()`: the checksummed `0x` form. -/
  bytesToHexAddress : Bytes → String

/-- The hex helpers are go-ethereum's, for some Keccak-256. -/
structure AddressCodec.IsGoEthereum (codec : AddressCodec) : Prop where
  isHexAddress_eq : codec.isHexAddress = Eth.isHexAddress
  hexToAddress_eq : codec.hexToAddress = Eth.hexToAddress
  bytesToHexAddress_eq : ∃ keccak, codec.bytesToHexAddress = Eth.bytesToHexAddress keccak

/-- What the bridge's proofs use of the hex helpers: an address is twenty bytes; `Hex()` of twenty
bytes is a strict address with its `0x`, and reads back as them; past its first two characters a
strict address decodes, to its bytes when written with `0x` and to nineteen bytes without. -/
structure AddressCodec.Lawful (codec : AddressCodec) : Prop where
  length_hexToAddress : ∀ s, (codec.hexToAddress s).length = 20
  hexToAddress_bytesToHexAddress : ∀ b : Bytes, b.length = 20 →
    codec.hexToAddress (codec.bytesToHexAddress b) = b
  isHexAddress_bytesToHexAddress : ∀ b, codec.isHexAddress (codec.bytesToHexAddress b) = true
  has0xPrefix_bytesToHexAddress : ∀ b, Eth.has0xPrefix (codec.bytesToHexAddress b).toList = true
  decode_drop_of_isHexAddress : ∀ s, codec.isHexAddress s = true →
    2 ≤ s.toList.length ∧ (Hex.decode (s.toList.drop 2)).2 = none
  decode_drop_of_has0xPrefix : ∀ s, codec.isHexAddress s = true →
    Eth.has0xPrefix s.toList = true → (Hex.decode (s.toList.drop 2)).1 = codec.hexToAddress s
  length_decode_drop_of_not_has0xPrefix : ∀ s, codec.isHexAddress s = true →
    Eth.has0xPrefix s.toList = false → (Hex.decode (s.toList.drop 2)).1.length = 19

/-- Go-ethereum's helpers meet the laws, for any Keccak. -/
theorem AddressCodec.IsGoEthereum.lawful {codec : AddressCodec} (h : codec.IsGoEthereum) :
    codec.Lawful := by
  obtain ⟨hhex, haddr, keccak, hbytes⟩ := h
  refine ⟨fun s => ?_, fun b hb => ?_, fun b => ?_, fun b => ?_, fun s hs => ?_,
    fun s hs hp => ?_, fun s hs hp => ?_⟩
  · rw [haddr]
    exact Eth.length_hexToAddress s
  · rw [haddr, hbytes, Eth.hexToAddress_bytesToHexAddress, Eth.bytesToAddress_of_length hb]
  · rw [hhex, hbytes]
    exact Eth.isHexAddress_bytesToHexAddress keccak b
  · rw [hbytes]
    exact Eth.has0xPrefix_bytesToHexAddress keccak b
  · rw [hhex] at hs
    exact Eth.decode_drop_of_isHexAddress hs
  · rw [hhex] at hs
    rw [haddr]
    exact Eth.decode_drop_of_has0xPrefix hs hp
  · rw [hhex] at hs
    exact Eth.length_decode_drop_of_not_has0xPrefix hs hp

/-- Go-ethereum's hex helpers, over a Keccak that hashes every text to zeros, and a Bech32
decoder: the codec of the runs on fixed inputs. -/
def AddressCodec.goEthereum (accAddressFromBech32 : String → Option Bytes) : AddressCodec :=
  ⟨accAddressFromBech32, Eth.isHexAddress, Eth.hexToAddress,
    Eth.bytesToHexAddress fun _ => List.replicate 32 0⟩

theorem AddressCodec.isGoEthereum_goEthereum (accAddressFromBech32 : String → Option Bytes) :
    (AddressCodec.goEthereum accAddressFromBech32).IsGoEthereum where
  isHexAddress_eq := rfl
  hexToAddress_eq := rfl
  bytesToHexAddress_eq := ⟨fun _ => List.replicate 32 0, rfl⟩

theorem AddressCodec.Lawful.isEmpty_bytesToHexAddress {codec : AddressCodec} (h : codec.Lawful)
    (b : Bytes) : (codec.bytesToHexAddress b).isEmpty = false := by
  have hp := h.has0xPrefix_bytesToHexAddress b
  rw [Bool.eq_false_iff, ne_eq, String.isEmpty_iff]
  intro he
  rw [he] at hp
  exact absurd hp (by decide)

/-- `AssetsLockedEvent` (`bridge.pb.go`). -/
structure AssetsLockedEvent where
  sequence : MathInt
  recipient : String
  amount : MathInt
  token : String
  deriving DecidableEq, Repr

/-- `!i.IsNil() && i.IsPositive()`: the short circuit keeps `IsPositive` off nil. -/
def MathInt.isSetPositive : MathInt → Bool
  | some x => decide (0 < x)
  | none => false

/-- `math.Int`'s `MaxBitLen`: its `Unmarshal` refuses an integer of more bits. -/
def MathInt.maxBitLen : Nat := 256

/-- What gogoproto's `Unmarshal` gives: nil, for an absent field, or at most `MaxBitLen` bits. -/
def MathInt.withinMaxBitLen : MathInt → Bool
  | some x => decide (x.natAbs < 2 ^ MathInt.maxBitLen)
  | none => true

/-- A `math.Int` that gogoproto reads back as it wrote it: set, since `Marshal` writes nil as
zero, and of at most `MaxBitLen` bits. -/
def MathInt.readsBack : MathInt → Bool
  | some x => decide (x.natAbs < 2 ^ MathInt.maxBitLen)
  | none => false

theorem MathInt.readsBack_of_isSetPositive {i : MathInt} (hp : i.isSetPositive)
    (hw : i.withinMaxBitLen) : i.readsBack := by
  cases i with
  | some x => exact hw
  | none => cases hp

namespace AssetsLockedEvent
variable (codec : AddressCodec)

/-- `TokenBytes`: the token as an EVM address. -/
def tokenBytes (e : AssetsLockedEvent) : Bytes :=
  codec.hexToAddress e.token

/-- `IsValid`: positive sequence, Bech32 recipient, hex token, positive amount. -/
def isValid (e : AssetsLockedEvent) : Bool :=
  e.sequence.isSetPositive && (codec.accAddressFromBech32 e.recipient).isSome &&
    codec.isHexAddress e.token && e.amount.isSetPositive

/-- The `math.Int`s of an event, as gogoproto's `Unmarshal` gives them. -/
def withinMaxBitLen (e : AssetsLockedEvent) : Bool :=
  e.sequence.withinMaxBitLen && e.amount.withinMaxBitLen

/-- An event that gogoproto reads back as it wrote it. -/
def readsBack (e : AssetsLockedEvent) : Bool :=
  e.sequence.readsBack && e.amount.readsBack

/-- `Equal`. `math.Int.Equal` panics on nil; every caller compares at least one valid event,
and `==` agrees with it on non-nil values. -/
def equal (e o : AssetsLockedEvent) : Bool :=
  e.sequence == o.sequence && e.recipient == o.recipient &&
    e.tokenBytes codec == o.tokenBytes codec && e.amount == o.amount

variable {codec}

theorem equal_iff {e o : AssetsLockedEvent} :
    e.equal codec o ↔ e.sequence = o.sequence ∧ e.recipient = o.recipient ∧
      e.tokenBytes codec = o.tokenBytes codec ∧ e.amount = o.amount := by
  simp [equal, and_assoc]

@[simp] theorem equal_refl (e : AssetsLockedEvent) : e.equal codec e := by
  simp [equal_iff]

theorem equal_comm (e o : AssetsLockedEvent) : e.equal codec o = o.equal codec e := by
  apply Bool.eq_iff_iff.2
  simp only [equal_iff]
  constructor <;> (rintro ⟨h1, h2, h3, h4⟩; exact ⟨h1.symm, h2.symm, h3.symm, h4.symm⟩)

theorem equal_trans {a b c : AssetsLockedEvent} (hab : a.equal codec b) (hbc : b.equal codec c) :
    a.equal codec c := by
  rw [equal_iff] at *
  obtain ⟨h1, h2, h3, h4⟩ := hab
  obtain ⟨h1', h2', h3', h4'⟩ := hbc
  exact ⟨h1.trans h1', h2.trans h2', h3.trans h3', h4.trans h4'⟩

theorem sequence_eq_of_equal {e o : AssetsLockedEvent} (h : e.equal codec o) :
    e.sequence = o.sequence :=
  (equal_iff.1 h).1

theorem exists_sequence_of_isValid {e : AssetsLockedEvent} (h : e.isValid codec) :
    ∃ n, e.sequence = some n ∧ 0 < n := by
  unfold isValid at h
  cases hs : e.sequence with
  | none => simp [hs, MathInt.isSetPositive] at h
  | some n => simp_all [MathInt.isSetPositive]

theorem readsBack_of_isValid {e : AssetsLockedEvent} (hv : e.isValid codec)
    (hw : e.withinMaxBitLen) : e.readsBack := by
  simp only [isValid, withinMaxBitLen, Bool.and_eq_true] at hv hw
  simp only [readsBack, Bool.and_eq_true]
  exact ⟨MathInt.readsBack_of_isSetPositive hv.1.1.1 hw.1,
    MathInt.readsBack_of_isSetPositive hv.2 hw.2⟩

/-- `Equal` reads the token through `HexToAddress`, which takes any text: an event `Equal` to a
valid one is valid exactly when its own token is a hex address. -/
theorem isValid_iff_of_equal {e o : AssetsLockedEvent} (h : e.equal codec o)
    (hv : e.isValid codec) : o.isValid codec ↔ codec.isHexAddress o.token := by
  obtain ⟨hseq, hrec, -, hamt⟩ := equal_iff.1 h
  simp only [isValid, Bool.and_eq_true] at hv ⊢
  rw [← hseq, ← hrec, ← hamt]
  exact ⟨fun ho => ho.1.2, fun ho => ⟨⟨hv.1.1, ho⟩, hv.2⟩⟩

end AssetsLockedEvent

/-- `AssetsLockedEvents`, a slice of events. -/
abbrev AssetsLockedEvents := List AssetsLockedEvent

namespace AssetsLockedEvents
variable (codec : AddressCodec)

/-- `IsStrictlyIncreasingSequence`: each sequence is one more than the one before it. -/
def isStrictlyIncreasingSequence : List AssetsLockedEvent → Bool
  | a :: b :: rest => (a.sequence.map (· + 1) == b.sequence) && isStrictlyIncreasingSequence (b :: rest)
  | _ => true

/-- `IsValid`: every event is valid, and the sequences increase by one. -/
def isValid (events : List AssetsLockedEvent) : Bool :=
  events.all (·.isValid codec) && isStrictlyIncreasingSequence events

/-- `Equal` (`slices.EqualFunc` with the event `Equal`). -/
def equal : List AssetsLockedEvent → List AssetsLockedEvent → Bool
  | [], [] => true
  | a :: l, b :: l' => a.equal codec b && equal l l'
  | _, _ => false

variable {codec}

theorem isStrictlyIncreasingSequence_cons {a : AssetsLockedEvent} {l : List AssetsLockedEvent}
    (h : isStrictlyIncreasingSequence (a :: l)) : isStrictlyIncreasingSequence l := by
  cases l with
  | nil => rfl
  | cons b l => simp only [isStrictlyIncreasingSequence, Bool.and_eq_true] at h; exact h.2

private theorem map_range_succ_shift (s : Int) (n : Nat) :
    (List.range (n + 1)).map (fun i : Nat => some (s + (i : Int))) =
      some s :: (List.range n).map fun i : Nat => some (s + 1 + (i : Int)) := by
  rw [List.range_succ_eq_map, List.map_cons, List.map_map]
  congr 1
  · simp
  · exact List.map_congr_left fun i _ => by
      simp only [Function.comp_apply]
      congr 1
      omega

theorem sequences_of_isStrictlyIncreasingSequence {s : Int} :
    ∀ {l : List AssetsLockedEvent}, isStrictlyIncreasingSequence l →
      l.head?.map (·.sequence) = some (some s) →
      l.map (·.sequence) = (List.range l.length).map fun i : Nat => some (s + (i : Int))
  | [], _, h => by simp at h
  | [a], _, h => by simp_all
  | a :: b :: rest, hinc, hhead => by
    simp only [isStrictlyIncreasingSequence, Bool.and_eq_true, beq_iff_eq] at hinc
    simp only [List.head?_cons, Option.map_some, Option.some.injEq] at hhead
    have hb : (b :: rest).head?.map (·.sequence) = some (some (s + 1)) := by
      simp [← hinc.1, hhead]
    rw [List.map_cons, sequences_of_isStrictlyIncreasingSequence hinc.2 hb, hhead,
      show (a :: b :: rest).length = (b :: rest).length + 1 from rfl, map_range_succ_shift s]

theorem sequence_getLast_of_map_sequence {l : List AssetsLockedEvent} {a : Int} (hl : l ≠ [])
    (hseq : l.map (·.sequence) = (List.range l.length).map fun i : Nat => some (a + i)) :
    (l.getLast hl).sequence = some (a + (l.length - 1 : Nat)) := by
  have hlen : l.length - 1 < l.length := Nat.sub_one_lt (List.length_pos_iff.2 hl).ne'
  have h := congrArg (fun m => m[l.length - 1]?) hseq
  simp only [List.getElem?_map, List.getElem?_range hlen, List.getElem?_eq_getElem hlen,
    Option.map_some] at h
  rw [List.getLast_eq_getElem]
  exact Option.some.inj h

theorem pairwise_sequence_lt {l : List AssetsLockedEvent} (hinc : isStrictlyIncreasingSequence l)
    (hset : ∀ e ∈ l, e.sequence.isSome) :
    l.Pairwise fun a b => ∃ x y, a.sequence = some x ∧ b.sequence = some y ∧ x < y := by
  cases l with
  | nil => exact List.Pairwise.nil
  | cons a rest =>
    obtain ⟨s, hs⟩ := Option.isSome_iff_exists.1 (hset a List.mem_cons_self)
    have hseq := sequences_of_isStrictlyIncreasingSequence (s := s) hinc (by simp [hs])
    have hp : ((List.range (a :: rest).length).map fun i : Nat => some (s + (i : Int))).Pairwise
        fun u v => ∃ x y, u = some x ∧ v = some y ∧ x < y := by
      rw [List.pairwise_map]
      refine List.pairwise_lt_range.imp fun {i j} hij => ⟨s + i, s + j, rfl, rfl, by omega⟩
    rw [← hseq, List.pairwise_map] at hp
    exact hp

theorem all_isValid_of_isValid {l : List AssetsLockedEvent} (h : isValid codec l) :
    ∀ e ∈ l, e.isValid codec := by
  simp only [isValid, Bool.and_eq_true, List.all_eq_true] at h
  exact h.1

theorem isStrictlyIncreasingSequence_of_isValid {l : List AssetsLockedEvent}
    (h : isValid codec l) : isStrictlyIncreasingSequence l := by
  simp only [isValid, Bool.and_eq_true] at h
  exact h.2

theorem equal_iff_forall₂ {l l' : List AssetsLockedEvent} :
    equal codec l l' ↔ List.Forall₂ (fun a b => a.equal codec b) l l' := by
  induction l generalizing l' with
  | nil => cases l' <;> simp [equal]
  | cons a l ih => cases l' <;> simp [equal, ih]

theorem equal_refl (l : List AssetsLockedEvent) : equal codec l l := by
  induction l with
  | nil => rfl
  | cons a l ih => simp [equal, ih]

theorem equal_comm (l l' : List AssetsLockedEvent) : equal codec l l' = equal codec l' l := by
  apply Bool.eq_iff_iff.2
  rw [equal_iff_forall₂, equal_iff_forall₂]
  constructor <;> intro h <;> exact List.Forall₂.flip (h.imp fun a b hab => by
    rw [flip, AssetsLockedEvent.equal_comm]; exact hab)

theorem map_sequence_of_forall₂ {l l' : List AssetsLockedEvent}
    (h : List.Forall₂ (fun a b => a.equal codec b) l l') :
    l.map (·.sequence) = l'.map (·.sequence) := by
  induction h with
  | nil => rfl
  | cons hab _ ih => simp [AssetsLockedEvent.sequence_eq_of_equal hab, ih]

theorem isStrictlyIncreasingSequence_congr :
    ∀ {l l' : List AssetsLockedEvent}, l.map (·.sequence) = l'.map (·.sequence) →
      isStrictlyIncreasingSequence l = isStrictlyIncreasingSequence l'
  | [], [], _ | [_], [_], _ => rfl
  | a :: b :: rest, a' :: b' :: rest', h => by
    simp only [List.map_cons, List.cons.injEq] at h
    have ih : isStrictlyIncreasingSequence (b :: rest) = isStrictlyIncreasingSequence (b' :: rest') :=
      isStrictlyIncreasingSequence_congr (by simp [h.2.1, h.2.2])
    simp only [isStrictlyIncreasingSequence, h.1, h.2.1, ih]
  | [], _ :: _, h | _ :: _, [], h | [_], _ :: _ :: _, h | _ :: _ :: _, [_], h => by
    simp at h

theorem isStrictlyIncreasingSequence_append : ∀ {l₁ l₂ : List AssetsLockedEvent},
    isStrictlyIncreasingSequence l₁ → isStrictlyIncreasingSequence l₂ →
    (∀ a ∈ l₁.getLast?, ∀ b ∈ l₂.head?, a.sequence.map (· + 1) = b.sequence) →
    isStrictlyIncreasingSequence (l₁ ++ l₂)
  | [], _, _, h₂, _ => h₂
  | [_], [], _, _, _ => rfl
  | [a], b :: rest, _, h₂, hjoin => by
    simp only [List.singleton_append, isStrictlyIncreasingSequence, Bool.and_eq_true, beq_iff_eq]
    exact ⟨hjoin a rfl b rfl, h₂⟩
  | a :: b :: rest, l₂, h₁, h₂, hjoin => by
    simp only [isStrictlyIncreasingSequence, Bool.and_eq_true, beq_iff_eq] at h₁
    have ih : isStrictlyIncreasingSequence ((b :: rest) ++ l₂) :=
      isStrictlyIncreasingSequence_append h₁.2 h₂
        (fun x hx => hjoin x (by rw [List.getLast?_cons_cons]; exact hx))
    simp only [List.cons_append, isStrictlyIncreasingSequence, Bool.and_eq_true, beq_iff_eq]
    exact ⟨h₁.1, ih⟩

theorem isStrictlyIncreasingSequence_drop : ∀ (n : Nat) {l : List AssetsLockedEvent},
    isStrictlyIncreasingSequence l → isStrictlyIncreasingSequence (l.drop n)
  | 0, _, h => h
  | _ + 1, [], _ => rfl
  | n + 1, _ :: _, h => isStrictlyIncreasingSequence_drop n (isStrictlyIncreasingSequence_cons h)

/-- Keeping the events whose sequence lies in an interval keeps a strictly increasing list
strictly increasing: what is kept is one run of consecutive sequences. -/
theorem isStrictlyIncreasingSequence_filter {P : Int → Bool}
    (hP : ∀ x y z, x ≤ y → y ≤ z → P x → P z → P y) :
    ∀ {l : List AssetsLockedEvent}, isStrictlyIncreasingSequence l →
      (∀ e ∈ l, e.sequence.isSome) →
      isStrictlyIncreasingSequence (l.filter fun e => e.sequence.any P)
  | [], _, _ => rfl
  | [a], _, _ => by
    simp only [List.filter_cons, List.filter_nil]
    split <;> rfl
  | a :: b :: rest, hinc, hset => by
    have hrest := isStrictlyIncreasingSequence_cons hinc
    have hset' : ∀ e ∈ b :: rest, e.sequence.isSome := fun e he => hset e (List.mem_cons_of_mem a he)
    have ih := isStrictlyIncreasingSequence_filter hP hrest hset'
    simp only [isStrictlyIncreasingSequence, Bool.and_eq_true, beq_iff_eq] at hinc
    obtain ⟨x, hx⟩ := Option.isSome_iff_exists.1 (hset a List.mem_cons_self)
    obtain ⟨y, hy⟩ := Option.isSome_iff_exists.1 (hset' b List.mem_cons_self)
    have hxy : y = x + 1 := by simpa [hx, hy] using hinc.1.symm
    rw [List.filter_cons]
    split
    · rename_i hPa
      rw [hx] at hPa
      -- the kept run starts at `a`; it goes on with `b`, or stops there
      rw [List.filter_cons]
      split
      · rename_i hPb
        simp only [isStrictlyIncreasingSequence, Bool.and_eq_true, beq_iff_eq]
        refine ⟨hinc.1, ?_⟩
        rw [List.filter_cons, if_pos hPb] at ih
        exact ih
      · rename_i hPb
        rw [hy] at hPb
        -- every later sequence is above `y`, so none of them is in the interval
        have hnone : rest.filter (fun e => e.sequence.any P) = [] := by
          rw [List.filter_eq_nil_iff]
          intro e he hPe
          have hlt := (List.pairwise_cons.1 (pairwise_sequence_lt hrest hset')).1 e he
          obtain ⟨u, v, hu, hv, huv⟩ := hlt
          rw [hy] at hu
          cases hu
          rw [hv] at hPe
          have hPy : P (x + 1) := hP x (x + 1) v (by omega) (by omega) hPa (by simpa using hPe)
          exact hPb (by simpa [hxy] using hPy)
        rw [hnone]
        rfl
    · exact ih

theorem length_le_of_isStrictlyIncreasingSequence {l : List AssetsLockedEvent} {start : Int}
    {k : Nat} (hinc : isStrictlyIncreasingSequence l)
    (hin : ∀ e ∈ l, ∃ n, e.sequence = some n ∧ start ≤ n ∧ n < start + k) : l.length ≤ k := by
  cases l with
  | nil => exact Nat.zero_le _
  | cons a rest =>
    obtain ⟨s, hs, hstart, -⟩ := hin a List.mem_cons_self
    have hseq := sequences_of_isStrictlyIncreasingSequence (s := s) hinc (by simp [hs])
    have hlast := sequence_getLast_of_map_sequence (List.cons_ne_nil a rest) hseq
    obtain ⟨n, hn, -, hlt⟩ := hin _ (List.getLast_mem (List.cons_ne_nil a rest))
    rw [hn, Option.some.injEq] at hlast
    have hlen : ((a :: rest).length - 1 : Nat) + 1 = (a :: rest).length := by simp
    omega

theorem le_sequence_getLast_of_isStrictlyIncreasingSequence {a : AssetsLockedEvent}
    {rest : List AssetsLockedEvent} {s : Int} (hinc : isStrictlyIncreasingSequence (a :: rest))
    (hs : a.sequence = some s) :
    ∃ t, ((a :: rest).getLast (List.cons_ne_nil a rest)).sequence = some t ∧ s ≤ t := by
  have hseq := sequences_of_isStrictlyIncreasingSequence (s := s) hinc (by simp [hs])
  exact ⟨_, sequence_getLast_of_map_sequence (List.cons_ne_nil a rest) hseq, by omega⟩

theorem isSome_sequence_of_isValid {l : List AssetsLockedEvent} (h : isValid codec l) :
    ∀ e ∈ l, e.sequence.isSome := fun e he => by
  obtain ⟨n, hn, -⟩ := AssetsLockedEvent.exists_sequence_of_isValid (all_isValid_of_isValid h e he)
  simp [hn]

theorem isValid_append {l₁ l₂ : List AssetsLockedEvent} (h₁ : isValid codec l₁)
    (h₂ : isValid codec l₂)
    (hjoin : ∀ a ∈ l₁.getLast?, ∀ b ∈ l₂.head?, a.sequence.map (· + 1) = b.sequence) :
    isValid codec (l₁ ++ l₂) := by
  simp only [isValid, Bool.and_eq_true, List.all_eq_true] at h₁ h₂ ⊢
  refine ⟨fun e he => ?_, isStrictlyIncreasingSequence_append h₁.2 h₂.2 hjoin⟩
  rcases List.mem_append.1 he with he | he
  · exact h₁.1 e he
  · exact h₂.1 e he

theorem isValid_drop (n : Nat) {l : List AssetsLockedEvent} (h : isValid codec l) :
    isValid codec (l.drop n) := by
  simp only [isValid, Bool.and_eq_true, List.all_eq_true] at h ⊢
  exact ⟨fun e he => h.1 e (List.mem_of_mem_drop he), isStrictlyIncreasingSequence_drop n h.2⟩

theorem isValid_filter {P : Int → Bool} (hP : ∀ x y z, x ≤ y → y ≤ z → P x → P z → P y)
    {l : List AssetsLockedEvent} (h : isValid codec l) :
    isValid codec (l.filter fun e => e.sequence.any P) := by
  have hset := isSome_sequence_of_isValid h
  simp only [isValid, Bool.and_eq_true, List.all_eq_true] at h ⊢
  exact ⟨fun e he => h.1 e (List.mem_of_mem_filter he),
    isStrictlyIncreasingSequence_filter hP h.2 hset⟩

theorem all_isValid_iff_of_forall₂ {l l' : List AssetsLockedEvent}
    (h : List.Forall₂ (fun a b => a.equal codec b) l l') (hv : ∀ e ∈ l, e.isValid codec) :
    (∀ e ∈ l', e.isValid codec) ↔ ∀ e ∈ l', codec.isHexAddress e.token := by
  induction h with
  | nil => simp
  | cons hab _ ih =>
    simp only [List.mem_cons, forall_eq_or_imp] at hv ⊢
    rw [AssetsLockedEvent.isValid_iff_of_equal hab hv.1, ih hv.2]

/-- A list `Equal` to a valid one has its sequences, so it is valid exactly when each of its
tokens is a hex address. -/
theorem isValid_iff_of_equal {l l' : List AssetsLockedEvent} (h : equal codec l l')
    (hv : isValid codec l) : isValid codec l' ↔ ∀ e ∈ l', codec.isHexAddress e.token := by
  have h₂ := equal_iff_forall₂.1 h
  have hinc : isStrictlyIncreasingSequence l' := by
    rw [← isStrictlyIncreasingSequence_congr (map_sequence_of_forall₂ h₂)]
    exact isStrictlyIncreasingSequence_of_isValid hv
  simp only [isValid, Bool.and_eq_true, List.all_eq_true, hinc, and_true]
  exact all_isValid_iff_of_forall₂ h₂ (all_isValid_of_isValid hv)

end AssetsLockedEvents

end Mezod
