import Starkstream.Protocol.Hex
import Starkstream.Starknet.Proto

/-! # Scalars of the protocol

Field elements and 128 bit numbers are sent as limbs of eight bytes, read from
slices that may be shorter, and written and read as hexadecimal text.  The macros of
the source are functions here that take the size and the conversions of the type.
The text is a list of characters, and its length is counted in bytes.
-/

namespace Starkstream

/-- The decoder succeeds on an even number of digits only. -/
structure HexCrate.Exact (crate : HexCrate) : Prop where
  digits_of_decode : ∀ {chars bytes}, crate.decode chars = .ok bytes →
    ∃ pairs : List (HexDigit × HexDigit), chars = pairs.flatMap fun pair => [pair.1.char, pair.2.char]

theorem HexCrate.pairwise_exact : HexCrate.pairwise.Exact where
  digits_of_decode {chars bytes} decoded := by
    suffices general : ∀ index bytes, decodePairs index chars = .ok bytes →
        ∃ pairs : List (HexDigit × HexDigit), chars = pairs.flatMap fun pair => [pair.1.char, pair.2.char] from
      general 0 bytes decoded
    clear decoded
    induction chars using List.twoStepInduction with
    | nil => exact fun _ _ _ => ⟨[], rfl⟩
    | singleton =>
      intro index bytes decoded
      cases decoded
    | cons_cons first second rest ih _ =>
      intro index bytes decoded
      rw [decodePairs] at decoded
      split at decoded
      next => cases decoded
      next => cases decoded
      next high low isHigh isLow =>
          cases decodedRest : decodePairs (index + 2) rest with
          | error =>
            rw [decodedRest] at decoded
            cases decoded
          | ok =>
            obtain ⟨pairs, rfl⟩ := ih _ _ decodedRest
            exact ⟨(⟨first, high, isHigh⟩, ⟨second, low, isLow⟩) :: pairs, rfl⟩

namespace Protocol

inductive DecodeError where
  | sizeTooBig
  | missing0xPrefix
  | decodeFromHex (source : FromHexError)

section
variable {α : Type}

/-- `from_slice` of a type with `size` bytes: a shorter slice fills the end of the
    array. -/
def fromSlice (size : Nat) (fromBytes : List UInt8 → α) (bytes : List UInt8) : Except DecodeError α :=
  if bytes.length > size then .error .sizeTooBig
  else .ok (fromBytes (List.replicate (size - bytes.length) 0 ++ bytes))

/-- The text behind the `0x`; a leading zero makes its size even. -/
def evenSized (s : List Char) : List Char := if byteLen s % 2 = 1 then '0' :: s.drop 2 else s.drop 2

/-- `from_hex` of a type with `size` bytes. -/
def fromHex (crate : HexCrate) (size : Nat) (fromBytes : List UInt8 → α) (s : List Char) : Except DecodeError α :=
  if List.isPrefixOf ['0', 'x'] s then
    match crate.decode (evenSized s) with
    | .error error => .error (.decodeFromHex error)
    | .ok bytes => fromSlice size fromBytes bytes
  else .error .missing0xPrefix

/-- `to_hex`. -/
def toHex (crate : HexCrate) (toBytes : α → List UInt8) (value : α) : List Char :=
  '0' :: 'x' :: (crate.encode (toBytes value)).toList

/-- The limbs of a type are its bytes, eight at a time. -/
structure Limbs (size : Nat) (fromBytes : List UInt8 → α) (toBytes : α → List UInt8) (toNat : α → Nat) : Prop where
  fromBytes_toBytes : ∀ value, fromBytes (toBytes value) = value
  toBytes_fromBytes : ∀ bytes, bytes.length = size → toBytes (fromBytes bytes) = bytes
  ofBytes_toBytes : ∀ value, BigEndian.ofBytes (toBytes value) = toNat value
  length_toBytes : ∀ value, (toBytes value).length = size

/-- The conversions of a type of `size` bytes are exact. -/
structure Exact (size : Nat) (fromBytes : List UInt8 → α) (toBytes : α → List UInt8) (toNat : α → Nat)
    (fromSlice : List UInt8 → Except DecodeError α) (fromHex : List Char → Except DecodeError α)
    (toHex : α → List Char) : Prop where
  fromBytes_toBytes : ∀ value, fromBytes (toBytes value) = value
  toBytes_fromBytes : ∀ bytes, bytes.length = size → toBytes (fromBytes bytes) = bytes
  fromSlice_iff : ∀ bytes, (∃ value, fromSlice bytes = .ok value) ↔ bytes.length ≤ size
  toNat_fromSlice : ∀ bytes value, fromSlice bytes = .ok value → toNat value = BigEndian.ofBytes bytes
  fromHex_iff : ∀ s, (∃ value, fromHex s = .ok value) ↔
    ∃ digits : List HexDigit, s = '0' :: 'x' :: digits.map (·.char) ∧ digits.length ≤ 2 * size
  toNat_fromHex : ∀ (digits : List HexDigit) value, fromHex ('0' :: 'x' :: digits.map (·.char)) = .ok value →
    toNat value = BigEndian.ofNibbles (digits.map (·.value))
  fromHex_toHex : ∀ value, fromHex (toHex value) = .ok value

section
variable {size : Nat} {fromBytes : List UInt8 → α} {toBytes : α → List UInt8} {toNat : α → Nat}

theorem fromSlice_of_le {bytes : List UInt8} (fits : bytes.length ≤ size) :
    fromSlice size fromBytes bytes = .ok (fromBytes (List.replicate (size - bytes.length) 0 ++ bytes)) :=
  if_neg (not_lt.mpr fits)

theorem exists_fromSlice_iff (bytes : List UInt8) :
    (∃ value, fromSlice size fromBytes bytes = .ok value) ↔ bytes.length ≤ size := by
  constructor
  · intro ⟨value, read⟩
    by_contra long
    rw [fromSlice, if_pos (not_le.mp long)] at read
    cases read
  · intro fits
    exact ⟨_, fromSlice_of_le fits⟩

theorem Limbs.toNat_fromSlice (limbs : Limbs size fromBytes toBytes toNat) {bytes value}
    (read : fromSlice size fromBytes bytes = .ok value) : toNat value = BigEndian.ofBytes bytes := by
  have fits : bytes.length ≤ size := (exists_fromSlice_iff bytes).mp ⟨value, read⟩
  rw [fromSlice_of_le fits] at read
  have isValue := Except.ok.inj read
  have width : (List.replicate (size - bytes.length) (0 : UInt8) ++ bytes).length = size := by
    rw [List.length_append, List.length_replicate]
    omega
  rw [← isValue, ← limbs.ofBytes_toBytes, limbs.toBytes_fromBytes _ width, BigEndian.ofBytes_replicate_append]

theorem byteLen_0x (chars : List Char) : byteLen ('0' :: 'x' :: chars) % 2 = byteLen chars % 2 := by
  have ascii : byteLen ('0' :: 'x' :: chars) = 1 + (1 + byteLen chars) := rfl
  omega

theorem decode_evenSized (crate : HexCrate) (digits : List HexDigit) :
    crate.decode (evenSized ('0' :: 'x' :: digits.map (·.char))) =
      decodeHexFelt crate ('0' :: 'x' :: digits.map (·.char)) := by
  have trimmed : trimStartMatches0x ('0' :: 'x' :: digits.map (·.char)) = digits.map (·.char) :=
    trimStart_digits digits
  rw [evenSized, byteLen_0x, decodeHexFelt, trimmed]
  rfl

theorem evenSized_toHex (hash : Hash) : evenSized ('0' :: 'x' :: hash.toHex.toList) = hash.toHex.toList := by
  have digits : hash.toHex.toList =
      ((hash.bytes.map hexPair).flatMap fun pair => [pair.1, pair.2]).map (·.char) := by
    rw [Hash.toList_toHex, List.map_flatMap]
    rfl
  have even : byteLen hash.toHex.toList % 2 ≠ 1 := by
    rw [digits, byteLen_digits, ← List.length_map (·.char), ← digits, Hash.length_toHex]
    omega
  rw [evenSized, byteLen_0x, if_neg even]
  rfl

theorem fromHex_0x (crate : HexCrate) (size : Nat) (fromBytes : List UInt8 → α) (chars : List Char) :
    fromHex crate size fromBytes ('0' :: 'x' :: chars) =
      match crate.decode (evenSized ('0' :: 'x' :: chars)) with
      | .error error => .error (.decodeFromHex error)
      | .ok bytes => fromSlice size fromBytes bytes :=
  if_pos (List.isPrefixOf_iff_prefix.mpr ⟨chars, rfl⟩)

theorem fromHex_digits (crate : HexCrate) (size : Nat) (fromBytes : List UInt8 → α) (digits : List HexDigit) :
    ∃ bytes, fromHex crate size fromBytes ('0' :: 'x' :: digits.map (·.char)) = fromSlice size fromBytes bytes ∧
      bytes.length = (digits.length + 1) / 2 ∧
      BigEndian.ofBytes bytes = BigEndian.ofNibbles (digits.map (·.value)) := by
  obtain ⟨bytes, decoded, count, encoded⟩ := decodeHexFelt_digits crate digits
  refine ⟨bytes, ?_, count, encoded⟩
  rw [fromHex_0x, decode_evenSized, decoded]

theorem digits_of_fromHex {crate : HexCrate} (exact : crate.Exact) {s value}
    (read : fromHex crate size fromBytes s = .ok value) :
    ∃ digits : List HexDigit, s = '0' :: 'x' :: digits.map (·.char) := by
  rw [fromHex] at read
  split at read
  next isPrefix =>
      obtain ⟨rest, rfl⟩ := List.isPrefixOf_iff_prefix.mp isPrefix
      cases decoded : crate.decode (evenSized (['0', 'x'] ++ rest)) with
      | error =>
        rw [decoded] at read
        cases read
      | ok =>
        obtain ⟨pairs, isPairs⟩ := exact.digits_of_decode decoded
        have isDigits : evenSized (['0', 'x'] ++ rest) =
            (pairs.flatMap fun pair => [pair.1, pair.2]).map (·.char) := by
          rw [isPairs, List.map_flatMap]
          rfl
        rw [evenSized] at isDigits
        split at isDigits
        next =>
            obtain ⟨-, digits, -, -, isRest⟩ := List.map_eq_cons_iff.mp isDigits.symm
            exact ⟨digits, congrArg (fun chars => '0' :: 'x' :: chars) isRest.symm⟩
        next => exact ⟨_, congrArg (fun chars => '0' :: 'x' :: chars) isDigits⟩
  next => cases read

theorem Limbs.exact (limbs : Limbs size fromBytes toBytes toNat) {crate : HexCrate} (crateExact : crate.Exact) :
    Exact size fromBytes toBytes toNat (fromSlice size fromBytes) (fromHex crate size fromBytes)
      (toHex crate toBytes) where
  fromBytes_toBytes := limbs.fromBytes_toBytes
  toBytes_fromBytes := limbs.toBytes_fromBytes
  fromSlice_iff := exists_fromSlice_iff
  toNat_fromSlice _ _ := limbs.toNat_fromSlice
  fromHex_iff s := by
    constructor
    · intro ⟨value, read⟩
      obtain ⟨digits, rfl⟩ := digits_of_fromHex crateExact read
      obtain ⟨bytes, asSlice, _, -⟩ := fromHex_digits crate size fromBytes digits
      have fits := (exists_fromSlice_iff bytes).mp ⟨value, asSlice ▸ read⟩
      exact ⟨digits, rfl, by omega⟩
    · rintro ⟨digits, rfl, _⟩
      obtain ⟨bytes, asSlice, _, -⟩ := fromHex_digits crate size fromBytes digits
      rw [asSlice]
      exact (exists_fromSlice_iff bytes).mpr (by omega)
  toNat_fromHex digits value read := by
    obtain ⟨_, asSlice, -, encoded⟩ := fromHex_digits crate size fromBytes digits
    rw [asSlice] at read
    rw [limbs.toNat_fromSlice read, encoded]
  fromHex_toHex value := by
    rw [toHex, crate.encode_eq, fromHex_0x, evenSized_toHex, crate.decode_toHex]
    have width := limbs.length_toBytes value
    have whole : fromSlice size fromBytes (toBytes value) = .ok value := by
      rw [fromSlice_of_le width.le, width, Nat.sub_self, List.replicate_zero, List.nil_append,
        limbs.fromBytes_toBytes]
    exact whole

end

end

end Protocol

namespace Starknet

open Protocol

/-- A number of 128 bits as two limbs, the first one the most significant. -/
structure Uint128 where
  x0 : UInt64
  x1 : UInt64
  deriving DecidableEq

namespace FieldElement

def toNat (element : FieldElement) : Nat :=
  2 ^ 192 * element.x0.toNat + 2 ^ 128 * element.x1.toNat + 2 ^ 64 * element.x2.toNat + element.x3.toNat

def fromSlice (bytes : List UInt8) : Except DecodeError FieldElement := Protocol.fromSlice 32 fromBytes bytes

def fromHex (crate : HexCrate) (s : List Char) : Except DecodeError FieldElement :=
  Protocol.fromHex crate 32 fromBytes s

def toHex (crate : HexCrate) (element : FieldElement) : List Char := Protocol.toHex crate toBytes element

end FieldElement

namespace Uint128

def fromBytes (bytes : List UInt8) : Uint128 :=
  let limb start := UInt64.ofNat (BigEndian.ofBytes ((bytes.drop start).take 8))
  ⟨limb 0, limb 8⟩

def toBytes (number : Uint128) : List UInt8 :=
  BigEndian.toBytes 8 number.x0.toNat ++ BigEndian.toBytes 8 number.x1.toNat

def toNat (number : Uint128) : Nat := 2 ^ 64 * number.x0.toNat + number.x1.toNat

def fromSlice (bytes : List UInt8) : Except DecodeError Uint128 := Protocol.fromSlice 16 fromBytes bytes

def fromHex (crate : HexCrate) (s : List Char) : Except DecodeError Uint128 :=
  Protocol.fromHex crate 16 fromBytes s

def toHex (crate : HexCrate) (number : Uint128) : List Char := Protocol.toHex crate toBytes number

end Uint128

theorem ofBytes_limb (limb : UInt64) : BigEndian.ofBytes (BigEndian.toBytes 8 limb.toNat) = limb.toNat :=
  BigEndian.ofBytes_toBytes limb.toNat_lt

theorem FieldElement.limbs : Limbs 32 fromBytes toBytes toNat where
  fromBytes_toBytes element := toBytes_injective (FieldElement.toBytes_fromBytes (by simp [toBytes]))
  toBytes_fromBytes bytes := FieldElement.toBytes_fromBytes
  ofBytes_toBytes element := by
    simp only [toBytes, toNat, BigEndian.ofBytes_append, BigEndian.toBytes_length, ofBytes_limb]
    ring
  length_toBytes element := by simp [toBytes]

theorem Uint128.limbs : Limbs 16 fromBytes toBytes toNat where
  fromBytes_toBytes number := by
    simp [fromBytes, toBytes, List.take_of_length_le, ofBytes_limb]
  toBytes_fromBytes bytes width := by
    have last : (bytes.drop 8).take 8 = bytes.drop 8 := List.take_of_length_le (by rw [List.length_drop]; omega)
    rw [toBytes, fromBytes, BigEndian.toBytes_limb (by omega), BigEndian.toBytes_limb (by omega), last,
      BigEndian.take_append_drop_add, List.drop_zero]
  ofBytes_toBytes number := by
    simp only [toBytes, toNat, BigEndian.ofBytes_append, BigEndian.toBytes_length, ofBytes_limb]
    ring
  length_toBytes number := by simp [toBytes]

/-- The conversions of both types are exact, with any crate whose decoder reads pairs of
    digits and nothing else. -/
theorem scalars_exact (crate : HexCrate) (crateExact : crate.Exact) :
    Exact 32 FieldElement.fromBytes FieldElement.toBytes FieldElement.toNat FieldElement.fromSlice
      (FieldElement.fromHex crate) (FieldElement.toHex crate) ∧
    Exact 16 Uint128.fromBytes Uint128.toBytes Uint128.toNat Uint128.fromSlice
      (Uint128.fromHex crate) (Uint128.toHex crate) :=
  ⟨FieldElement.limbs.exact crateExact, Uint128.limbs.exact crateExact⟩

/-- An odd number of digits in either case, and none. -/
theorem scalars_exact_odd :
    (∃ element, FieldElement.fromHex .pairwise "0xaBc".toList = .ok element ∧ element.toNat = 0xabc) ∧
    ∃ number, Uint128.fromHex .pairwise "0x".toList = .ok number ∧ number.toNat = 0 := by
  obtain ⟨elements, numbers⟩ := scalars_exact .pairwise HexCrate.pairwise_exact
  constructor
  · obtain ⟨element, read⟩ := (elements.fromHex_iff "0xaBc".toList).mpr
      ⟨[⟨'a', 10, by decide⟩, ⟨'B', 11, by decide⟩, ⟨'c', 12, by decide⟩], by decide, by decide⟩
    exact ⟨element, read, elements.toNat_fromHex
      [⟨'a', 10, by decide⟩, ⟨'B', 11, by decide⟩, ⟨'c', 12, by decide⟩] element read⟩
  · obtain ⟨number, read⟩ := (numbers.fromHex_iff "0x".toList).mpr ⟨[], by decide, by decide⟩
    exact ⟨number, read, numbers.toNat_fromHex [] number read⟩

end Starknet

end Starkstream
