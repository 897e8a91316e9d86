import Mezod.Lib.Go

/-! # Hex text and Ethereum addresses

`encoding/hex` reads pairs of hex digits of either case and stops at the first character that
is not one, giving back the bytes before it together with the error. go-ethereum's `common`
reads an address out of hex text leniently and checks one strictly: `HexToAddress` drops an
optional `0x`, puts a `0` in front of an odd number of digits, keeps what decodes and of that
the last twenty bytes, left-padded; `IsHexAddress` asks for exactly forty digits after the
optional `0x`. `Hex()` writes the twenty bytes as `0x` and forty digits whose letters are
upper-cased where the Keccak-256 of the lower-case text says so (EIP-55); the hash is a
parameter.

What is proved here: the digits `Hex()` writes read back as the address, whatever their case,
through either reader; a strict address decodes without error once its first two characters are
dropped; and on one that has its `0x`, that is the lenient reading. Text is a list of
characters: Go indexes the bytes of a string, which are its characters on the ASCII that hex
digits are. -/

namespace Hex

/-- `fromHexChar`: the value of a hex digit, of either case. -/
def digitValue (c : Char) : Option Nat :=
  if '0' ≤ c ∧ c ≤ '9' then some (c.toNat - 48)
  else if 'a' ≤ c ∧ c ≤ 'f' then some (c.toNat - 87)
  else if 'A' ≤ c ∧ c ≤ 'F' then some (c.toNat - 55)
  else none

/-- What `hex.Decode` fails with. -/
inductive DecodeError where
  | invalidByte (c : Char)
  | length
  deriving DecidableEq, Repr

/-- `%#U` of a character: `U+`, at least four upper-case digits of its code point, and the
character quoted. -/
def formatCodePoint (c : Char) : String :=
  let digits := Nat.toDigits 16 c.toNat
  "U+" ++ String.ofList ((List.replicate (4 - digits.length) '0' ++ digits).map Char.toUpper) ++
    " '" ++ c.toString ++ "'"

/-- The text of the error. -/
def DecodeError.toString : DecodeError → String
  | .invalidByte c => "encoding/hex: invalid byte: " ++ formatCodePoint c
  | .length => "encoding/hex: odd length hex string"

/-- `hex.Decode`: the bytes of the digit pairs before the first failure, and the failure. The
last digit of an odd text is checked before the length is reported, as Go does. -/
def decode : List Char → List UInt8 × Option DecodeError
  | [] => ([], none)
  | [c] => ([], some (if (digitValue c).isSome then .length else .invalidByte c))
  | p :: q :: rest =>
    match digitValue p, digitValue q with
    | none, _ => ([], some (.invalidByte p))
    | some _, none => ([], some (.invalidByte q))
    | some a, some b => ((16 * a + b).toUInt8 :: (decode rest).1, (decode rest).2)

/-- The lower-case digits of `hex.Encode`, two a byte. -/
def encodeChars (bytes : List UInt8) : List Char :=
  bytes.flatMap fun b => [Go.hexDigit (b.toNat / 16), Go.hexDigit (b.toNat % 16)]

/-- A digit, of either case. -/
def IsDigit (c : Char) : Prop :=
  (digitValue c).isSome

instance : DecidablePred IsDigit := fun c => inferInstanceAs (Decidable ((digitValue c).isSome))

theorem digitValue_hexDigit {n : Nat} (h : n < 16) : digitValue (Go.hexDigit n) = some n := by
  have key : ∀ m : Fin 16, digitValue (Go.hexDigit m) = some m := by decide
  exact key ⟨n, h⟩

@[simp] theorem encodeChars_nil : encodeChars [] = [] := rfl

@[simp] theorem encodeChars_cons (b : UInt8) (bytes : List UInt8) :
    encodeChars (b :: bytes) =
      Go.hexDigit (b.toNat / 16) :: Go.hexDigit (b.toNat % 16) :: encodeChars bytes := rfl

@[simp] theorem length_encodeChars (bytes : List UInt8) :
    (encodeChars bytes).length = 2 * bytes.length := by
  induction bytes with
  | nil => rfl
  | cons b bytes ih => simp [ih]; omega

theorem decode_encodeChars (bytes : List UInt8) : decode (encodeChars bytes) = (bytes, none) := by
  induction bytes with
  | nil => rfl
  | cons b bytes ih =>
    have hb := b.toNat_lt
    rw [encodeChars_cons, decode, digitValue_hexDigit (by omega),
      digitValue_hexDigit (by omega)]
    dsimp only
    rw [ih, show 16 * (b.toNat / 16) + b.toNat % 16 = b.toNat by omega]
    simp

theorem decode_congr : ∀ {l₁ l₂ : List Char},
    List.Forall₂ (fun a b => digitValue a = digitValue b ∧ IsDigit a) l₁ l₂ →
      decode l₁ = decode l₂
  | [], [], .nil => rfl
  | [a], [_], .cons ⟨hv, hd⟩ .nil => by
    have hd' : (digitValue a).isSome = true := hd
    simp only [decode, ← hv, hd', if_true]
  | _ :: _ :: _, _ :: _ :: _, .cons ⟨hv₁, hd₁⟩ (.cons ⟨hv₂, hd₂⟩ h) => by
    obtain ⟨a, ha⟩ := Option.isSome_iff_exists.1 hd₁
    obtain ⟨b, hb⟩ := Option.isSome_iff_exists.1 hd₂
    rw [decode, decode, ← hv₁, ← hv₂, ha, hb]
    dsimp only
    rw [decode_congr h]

theorem isDigit_of_forall₂ : ∀ {l₁ l₂ : List Char},
    List.Forall₂ (fun a b => digitValue a = digitValue b ∧ IsDigit a) l₁ l₂ →
      ∀ c ∈ l₂, IsDigit c
  | [], [], .nil => by simp
  | _ :: _, _ :: _, .cons ⟨hv, hd⟩ h => by
    intro c hc
    rcases List.mem_cons.1 hc with rfl | hc
    · unfold IsDigit at *
      rw [← hv]
      exact hd
    · exact isDigit_of_forall₂ h c hc

theorem decode_of_digits : ∀ {l : List Char}, (∀ c ∈ l, IsDigit c) → l.length % 2 = 0 →
    (decode l).2 = none ∧ (decode l).1.length = l.length / 2
  | [], _, _ => ⟨rfl, rfl⟩
  | [_], _, h => by simp at h
  | p :: q :: rest, hd, hl => by
    obtain ⟨a, ha⟩ := Option.isSome_iff_exists.1 (hd p List.mem_cons_self)
    obtain ⟨b, hb⟩ := Option.isSome_iff_exists.1
      (hd q (List.mem_cons_of_mem _ List.mem_cons_self))
    obtain ⟨h₂, h₁⟩ := decode_of_digits (l := rest)
      (fun c hc => hd c (List.mem_cons_of_mem _ (List.mem_cons_of_mem _ hc)))
      (by simp at hl; omega)
    rw [decode, ha, hb]
    refine ⟨h₂, ?_⟩
    simp only [List.length_cons, h₁]
    omega

theorem isDigit_hexDigit {n : Nat} (h : n < 16) : IsDigit (Go.hexDigit n) := by
  simp [IsDigit, digitValue_hexDigit h]

theorem isDigit_of_mem_encodeChars {bytes : List UInt8} {c : Char} (hc : c ∈ encodeChars bytes) :
    ∃ n < 16, c = Go.hexDigit n := by
  obtain ⟨b, -, hc⟩ := List.mem_flatMap.1 hc
  have hb := b.toNat_lt
  rcases List.mem_pair.1 hc with rfl | rfl
  · exact ⟨_, by omega, rfl⟩
  · exact ⟨_, by omega, rfl⟩

end Hex

namespace Eth
open Hex

/-- `has0xPrefix`. -/
def has0xPrefix : List Char → Bool
  | '0' :: c :: _ => c == 'x' || c == 'X'
  | _ => false

/-- The digits after an optional `0x`. -/
def stripPrefix (s : List Char) : List Char :=
  if has0xPrefix s then s.drop 2 else s

/-- `IsHexAddress`: forty digits after an optional `0x`. -/
def isHexAddress (s : String) : Bool :=
  (stripPrefix s.toList).length == 40 && (stripPrefix s.toList).all fun c => decide (IsDigit c)

/-- `Address.SetBytes`: the last twenty bytes, left-padded with zeros. -/
def bytesToAddress (b : List UInt8) : List UInt8 :=
  List.replicate (20 - b.length) 0 ++ b.drop (b.length - 20)

/-- `FromHex`: what decodes of the digits after an optional `0x`, with a `0` put in front of an
odd number of them. -/
def fromHex (s : String) : List UInt8 :=
  let digits := stripPrefix s.toList
  (decode (if digits.length % 2 = 1 then '0' :: digits else digits)).1

/-- `HexToAddress(s).Bytes()`. -/
def hexToAddress (s : String) : List UInt8 :=
  bytesToAddress (fromHex s)

/-- The EIP-55 casing of lower-case digits by the hash of their text: a letter is upper-cased
when its nibble of the hash is above seven. -/
def checksum (hash : List UInt8) (lower : List Char) : List Char :=
  lower.zipIdx.map fun (c, i) =>
    let hashByte := hash.getD (i / 2) 0
    let nibble := if i % 2 = 0 then hashByte >>> 4 else hashByte &&& 0xf
    if c > '9' ∧ nibble > 7 then Char.ofNat (c.toNat - 32) else c

/-- `BytesToAddress(b).Hex()`, for the Keccak-256 `keccak`. -/
def bytesToHexAddress (keccak : List UInt8 → List UInt8) (b : List UInt8) : String :=
  let lower := encodeChars (bytesToAddress b)
  String.ofList ('0' :: 'x' :: checksum (keccak (lower.map fun c => c.toNat.toUInt8)) lower)

/-- `BytesToHash`: the last thirty-two bytes, left-padded with zeros. -/
def bytesToHash (b : List UInt8) : List UInt8 :=
  List.replicate (32 - b.length) 0 ++ b.drop (b.length - 32)

/-- `HexToHash(s).Bytes()`. -/
def hexToHash (s : String) : List UInt8 :=
  bytesToHash (fromHex s)

/-- `LeftPadBytes`: zeros in front up to `l` bytes; a longer slice is kept as it is. -/
def leftPadBytes (slice : List UInt8) (l : Nat) : List UInt8 :=
  if l ≤ slice.length then slice else List.replicate (l - slice.length) 0 ++ slice

/-- `math.U256Bytes`: the value modulo `2 ^ 256` in thirty-two big-endian bytes, as the ABI packs
a `uint256`. -/
def u256Bytes (n : Nat) : List UInt8 :=
  leftPadBytes (Go.bigEndianBytes (n % 2 ^ 256)) 32

@[simp] theorem length_bytesToHash (b : List UInt8) : (bytesToHash b).length = 32 := by
  simp only [bytesToHash, List.length_append, List.length_replicate, List.length_drop]
  omega

theorem bigSetBytes_bytesToHash (b : List UInt8) :
    Go.bigSetBytes (bytesToHash b) = Go.bigSetBytes b % 2 ^ 256 := by
  have hsplit := Go.bigSetBytes_append (b.take (b.length - 32)) (b.drop (b.length - 32))
  rw [List.take_append_drop] at hsplit
  have hlow := Go.bigSetBytes_lt (b.drop (b.length - 32))
  have hlen : (b.drop (b.length - 32)).length ≤ 32 := by rw [List.length_drop]; omega
  have hpow : (256 : Nat) ^ 32 = 2 ^ 256 := by norm_num
  rw [bytesToHash, Go.bigSetBytes_replicate_append, hsplit]
  by_cases h : 32 ≤ b.length
  · -- the dropped high bytes are a multiple of `2 ^ 256`
    have h32 : (b.drop (b.length - 32)).length = 32 := by rw [List.length_drop]; omega
    rw [h32, hpow] at hlow ⊢
    rw [Nat.mul_add_mod_self_right, Nat.mod_eq_of_lt hlow]
  · -- nothing is dropped
    have hnil : b.take (b.length - 32) = [] := List.take_eq_nil_iff.2 (.inl (by omega))
    have hlt : Go.bigSetBytes (b.drop (b.length - 32)) < 2 ^ 256 :=
      lt_of_lt_of_le hlow (hpow ▸ Nat.pow_le_pow_right (by norm_num) hlen)
    rw [hnil]
    simp only [Go.bigSetBytes, List.foldl_nil, Nat.zero_mul, Nat.zero_add] at hlt ⊢
    exact (Nat.mod_eq_of_lt hlt).symm

@[simp] theorem length_u256Bytes (n : Nat) : (u256Bytes n).length = 32 := by
  have h := Go.length_bigEndianBytes_le (k := 32) (lt_of_lt_of_eq (Nat.mod_lt n (by positivity))
    (by norm_num : (2 : Nat) ^ 256 = 256 ^ 32))
  unfold u256Bytes leftPadBytes
  split
  · omega
  · simp only [List.length_append, List.length_replicate]
    omega

theorem bigSetBytes_u256Bytes (n : Nat) : Go.bigSetBytes (u256Bytes n) = n % 2 ^ 256 := by
  unfold u256Bytes leftPadBytes
  split
  · exact Go.bigSetBytes_bigEndianBytes _
  · rw [Go.bigSetBytes_replicate_append, Go.bigSetBytes_bigEndianBytes]

@[simp] theorem length_bytesToAddress (b : List UInt8) : (bytesToAddress b).length = 20 := by
  simp only [bytesToAddress, List.length_append, List.length_replicate, List.length_drop]
  omega

theorem bytesToAddress_of_length {b : List UInt8} (h : b.length = 20) : bytesToAddress b = b := by
  simp [bytesToAddress, h]

@[simp] theorem bytesToAddress_bytesToAddress (b : List UInt8) :
    bytesToAddress (bytesToAddress b) = bytesToAddress b :=
  bytesToAddress_of_length (length_bytesToAddress b)

@[simp] theorem length_hexToAddress (s : String) : (hexToAddress s).length = 20 :=
  length_bytesToAddress _

theorem digitValue_cased {n : Nat} (h : n < 16) (up : Prop) [Decidable up] :
    digitValue (if Go.hexDigit n > '9' ∧ up then Char.ofNat ((Go.hexDigit n).toNat - 32)
      else Go.hexDigit n) = some n := by
  have key : ∀ m : Fin 16, digitValue (if Go.hexDigit m > '9' then
      Char.ofNat ((Go.hexDigit m).toNat - 32) else Go.hexDigit m) = some m.val := by decide
  by_cases hu : up
  · simpa only [hu, and_true] using key ⟨n, h⟩
  · simpa only [hu, and_false, if_false] using digitValue_hexDigit h

theorem forall₂_checksum (hash : List UInt8) {lower : List Char}
    (hl : ∀ c ∈ lower, ∃ n < 16, c = Go.hexDigit n) :
    List.Forall₂ (fun a b => digitValue a = digitValue b ∧ IsDigit a) lower
      (checksum hash lower) := by
  unfold checksum
  conv_lhs => rw [← List.zipIdx_map_fst 0 lower]
  rw [List.forall₂_map_left_iff, List.forall₂_map_right_iff, List.forall₂_same]
  rintro ⟨c, i⟩ hci
  obtain ⟨n, hn, rfl⟩ := hl c (List.fst_mem_of_mem_zipIdx hci)
  refine ⟨?_, isDigit_hexDigit hn⟩
  dsimp only
  rw [digitValue_hexDigit hn, digitValue_cased hn]

theorem decode_bytesToHexAddress (keccak : List UInt8 → List UInt8) (b : List UInt8) :
    decode ((bytesToHexAddress keccak b).toList.drop 2) = (bytesToAddress b, none) := by
  simp only [bytesToHexAddress, String.toList_ofList, List.drop_succ_cons, List.drop_zero]
  rw [← decode_congr (forall₂_checksum _ fun _ hc => isDigit_of_mem_encodeChars hc),
    decode_encodeChars]

theorem toList_bytesToHexAddress (keccak : List UInt8 → List UInt8) (b : List UInt8) :
    ∃ rest, (bytesToHexAddress keccak b).toList = '0' :: 'x' :: rest ∧ rest.length = 40 ∧
      ∀ c ∈ rest, IsDigit c := by
  let lower := encodeChars (bytesToAddress b)
  have hf := @forall₂_checksum (keccak (lower.map fun c => c.toNat.toUInt8)) lower
    fun _ hc => isDigit_of_mem_encodeChars hc
  refine ⟨_, by simp [bytesToHexAddress, lower], ?_, isDigit_of_forall₂ hf⟩
  rw [← hf.length_eq]
  simp [lower]

theorem isHexAddress_bytesToHexAddress (keccak : List UInt8 → List UInt8) (b : List UInt8) :
    isHexAddress (bytesToHexAddress keccak b) = true := by
  obtain ⟨rest, hs, hl, hd⟩ := toList_bytesToHexAddress keccak b
  simpa [isHexAddress, hs, stripPrefix, has0xPrefix, hl] using hd

theorem has0xPrefix_bytesToHexAddress (keccak : List UInt8 → List UInt8) (b : List UInt8) :
    has0xPrefix (bytesToHexAddress keccak b).toList = true := by
  obtain ⟨rest, hs, -, -⟩ := toList_bytesToHexAddress keccak b
  simp [hs, has0xPrefix]

theorem isEmpty_bytesToHexAddress (keccak : List UInt8 → List UInt8) (b : List UInt8) :
    (bytesToHexAddress keccak b).isEmpty = false := by
  obtain ⟨rest, hs, -, -⟩ := toList_bytesToHexAddress keccak b
  rw [Bool.eq_false_iff, ne_eq, String.isEmpty_iff]
  intro he
  simp [he] at hs

/-- `HexToAddress` reads back what `Hex()` wrote. -/
theorem hexToAddress_bytesToHexAddress (keccak : List UInt8 → List UInt8) (b : List UInt8) :
    hexToAddress (bytesToHexAddress keccak b) = bytesToAddress b := by
  obtain ⟨rest, hs, hl, -⟩ := toList_bytesToHexAddress keccak b
  have hdec := decode_bytesToHexAddress keccak b
  rw [hs] at hdec
  simp only [List.drop_succ_cons, List.drop_zero] at hdec
  simp [hexToAddress, fromHex, stripPrefix, hs, has0xPrefix, hl, hdec]

/-- A strict address decodes without error once its first two characters are dropped, whether
they were its `0x` or two of its digits. -/
theorem decode_drop_of_isHexAddress {s : String} (h : isHexAddress s = true) :
    2 ≤ s.toList.length ∧ (decode (s.toList.drop 2)).2 = none := by
  simp only [isHexAddress, Bool.and_eq_true, beq_iff_eq, List.all_eq_true,
    decide_eq_true_eq] at h
  obtain ⟨hl, hd⟩ := h
  by_cases hp : has0xPrefix s.toList = true
  · -- the `0x` is dropped, and forty digits remain
    simp only [stripPrefix, hp, if_true] at hl hd
    exact ⟨by rw [List.length_drop] at hl; omega, (decode_of_digits hd (by omega)).1⟩
  · -- two of forty digits are dropped, and thirty-eight remain
    simp only [stripPrefix, hp, Bool.false_eq_true, if_false] at hl hd
    refine ⟨by omega, (decode_of_digits (fun c hc => hd c (List.mem_of_mem_drop hc))
      (by rw [List.length_drop]; omega)).1⟩

/-- On a strict address without its `0x`, two of its forty digits are dropped, and nineteen
bytes decode. -/
theorem length_decode_drop_of_not_has0xPrefix {s : String} (h : isHexAddress s = true)
    (hp : has0xPrefix s.toList = false) : (decode (s.toList.drop 2)).1.length = 19 := by
  simp only [isHexAddress, Bool.and_eq_true, beq_iff_eq, List.all_eq_true,
    decide_eq_true_eq, stripPrefix, hp, Bool.false_eq_true, if_false] at h
  obtain ⟨hl, hd⟩ := h
  rw [(decode_of_digits (fun c hc => hd c (List.mem_of_mem_drop hc))
    (by rw [List.length_drop]; omega)).2, List.length_drop, hl]

theorem decode_drop_of_has0xPrefix {s : String} (h : isHexAddress s = true)
    (hp : has0xPrefix s.toList = true) : (decode (s.toList.drop 2)).1 = hexToAddress s := by
  simp only [isHexAddress, Bool.and_eq_true, beq_iff_eq, List.all_eq_true,
    decide_eq_true_eq, stripPrefix, hp, if_true] at h
  obtain ⟨hl, hd⟩ := h
  have hlen : (decode (s.toList.drop 2)).1.length = 20 := by
    rw [(decode_of_digits hd (by omega)).2, hl]
  have hodd : ¬ (s.toList.drop 2).length % 2 = 1 := by omega
  simp only [hexToAddress, fromHex, stripPrefix, hp, if_true]
  rw [if_neg hodd, bytesToAddress_of_length hlen]

end Eth
