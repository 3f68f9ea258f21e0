import Starkstream.Provider.HeadCursor

/-! # Hexadecimal text of bytes

The two digits that a byte is written with are read back as that byte, so the text
of a hash determines it.  The empty hash is written with one digit, and all others
with an even number of digits.
-/

namespace Starkstream

def HexDigit.ofNibble (nibble : Fin 16) : HexDigit where
  char := Hash.hexDigit nibble
  value := nibble
  valid := by revert nibble; decide

theorem neZero_sixteen : NeZero 16 := ⟨by decide⟩

def hexPair (byte : UInt8) : HexDigit × HexDigit :=
  (.ofNibble (@Fin.ofNat 16 neZero_sixteen (byte.toNat / 16)),
    .ofNibble (@Fin.ofNat 16 neZero_sixteen (byte.toNat % 16)))

theorem nibbles_lt (byte : UInt8) : byte.toNat / 16 % 16 = byte.toNat / 16 := by
  have small : byte.toNat < 256 := byte.toNat_lt
  omega

theorem byteOf_hexPair (byte : UInt8) : BigEndian.byteOf (hexPair byte).1.value (hexPair byte).2.value = byte := by
  have whole : 16 * (byte.toNat / 16 % 16) + byte.toNat % 16 % 16 = byte.toNat := by
    rw [nibbles_lt]
    omega
  rw [← UInt8.toNat_inj, BigEndian.byteOf_toNat]
  exact whole

namespace Hash

theorem toList_toHex (hash : Hash) :
    hash.toHex.toList = (hash.bytes.map hexPair).flatMap fun pair => [pair.1.char, pair.2.char] := by
  simp [toHex, List.flatMap_map, hexPair, HexDigit.ofNibble, nibbles_lt]

theorem length_toHex (hash : Hash) : hash.toHex.toList.length = 2 * hash.len := by
  simp [toHex, len, List.length_flatMap, mul_comm]

end Hash

/-- What is encoded is decoded to the bytes that were given. -/
theorem HexCrate.decode_toHex (crate : HexCrate) (hash : Hash) : crate.decode hash.toHex.toList = .ok hash.bytes := by
  rw [Hash.toList_toHex, crate.decode_pairs, List.map_map]
  simp [Function.comp_def, byteOf_hexPair]

namespace Hash

theorem toHex_injective : Function.Injective toHex := by
  intro left right same
  have decoded := HexCrate.pairwise.decode_toHex left
  rw [same, HexCrate.pairwise.decode_toHex] at decoded
  exact congrArg Hash.mk (Except.ok.inj decoded).symm

theorem ne_toHex_of_odd (hash : Hash) : "0" ≠ hash.toHex := by
  intro same
  have length := hash.length_toHex
  rw [← same] at length
  have one : "0".toList.length = 1 := rfl
  omega

/-- The text of a hash determines it. -/
theorem display_injective : Function.Injective display := by
  have zero : "0x0" = "0x" ++ "0" := rfl
  have behind : ∀ {left right : String}, "0x" ++ left = "0x" ++ right → left = right := by
    intro left right same
    rw [← String.toList_inj, String.toList_append, String.toList_append] at same
    exact String.toList_inj.mp (List.append_cancel_left same)
  intro left right same
  rw [display, display, zero] at same
  cases leftEmpty : left.isEmpty with
  | true =>
    cases rightEmpty : right.isEmpty with
    | true => exact congrArg Hash.mk ((List.isEmpty_iff.mp leftEmpty).trans (List.isEmpty_iff.mp rightEmpty).symm)
    | false =>
      rw [leftEmpty, rightEmpty] at same
      exact absurd (behind same) right.ne_toHex_of_odd
  | false =>
    cases rightEmpty : right.isEmpty with
    | true =>
      rw [leftEmpty, rightEmpty] at same
      exact absurd (behind same).symm left.ne_toHex_of_odd
    | false =>
      rw [leftEmpty, rightEmpty] at same
      exact toHex_injective (behind same)

end Hash

end Starkstream
