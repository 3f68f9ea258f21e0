import Mathlib.Data.List.Induction
import Mathlib.Tactic.Ring

/-! # Big-endian numbers

A number as a list of digits with the most significant one first: bytes of a
fixed width, and hexadecimal digits in any number.
-/

namespace BigEndian

/-- The last `width` bytes of a number. -/
def toBytes : Nat → Nat → List UInt8
  | 0, _ => []
  | width + 1, number => toBytes width (number / 256) ++ [UInt8.ofNat (number % 256)]

def ofBytes (bytes : List UInt8) : Nat :=
  bytes.foldl (fun high byte => 256 * high + byte.toNat) 0

def ofNibbles (nibbles : List (Fin 16)) : Nat :=
  nibbles.foldl (fun high (nibble : Fin 16) => 16 * high + nibble.val) 0

def byteOf (high low : Fin 16) : UInt8 := UInt8.ofNat (16 * high + low)

@[simp] theorem toBytes_length (width number : Nat) : (toBytes width number).length = width := by
  induction width generalizing number with
  | zero => rfl
  | succ width ih => simp [toBytes, ih]

theorem ofBytes_concat (bytes : List UInt8) (byte : UInt8) :
    ofBytes (bytes ++ [byte]) = 256 * ofBytes bytes + byte.toNat := by
  simp [ofBytes, List.foldl_append]

theorem ofBytes_append (high low : List UInt8) :
    ofBytes (high ++ low) = 256 ^ low.length * ofBytes high + ofBytes low := by
  induction low using List.reverseRecOn with
  | nil => simp [ofBytes]
  | append_singleton low byte ih =>
    rw [← List.append_assoc, ofBytes_concat, ih, ofBytes_concat, List.length_append, List.length_singleton]
    ring

theorem ofBytes_lt (bytes : List UInt8) : ofBytes bytes < 256 ^ bytes.length := by
  induction bytes using List.reverseRecOn with
  | nil => simp [ofBytes]
  | append_singleton bytes byte =>
    have small : byte.toNat < 256 := byte.toNat_lt
    rw [ofBytes_concat, List.length_append, List.length_singleton, pow_succ]
    omega

/-- Bytes are determined by their number and by what they encode. -/
theorem toBytes_ofBytes (bytes : List UInt8) : toBytes bytes.length (ofBytes bytes) = bytes := by
  induction bytes using List.reverseRecOn with
  | nil => rfl
  | append_singleton bytes byte ih =>
    have small : byte.toNat < 256 := byte.toNat_lt
    have high : (256 * ofBytes bytes + byte.toNat) / 256 = ofBytes bytes := by omega
    have low : (256 * ofBytes bytes + byte.toNat) % 256 = byte.toNat := by omega
    rw [List.length_append, List.length_singleton, ofBytes_concat, toBytes, high, low, ih, UInt8.ofNat_toNat]

theorem ofBytes_replicate_append (count : Nat) (bytes : List UInt8) :
    ofBytes (List.replicate count 0 ++ bytes) = ofBytes bytes := by
  induction count with
  | zero => rfl
  | succ count ih => exact ih

/-- Two lists of bytes encode the same number exactly if the longer one is the other
    one with zeros in front. -/
theorem ofBytes_eq_iff {long short : List UInt8} (longer : short.length ≤ long.length) :
    ofBytes long = ofBytes short ↔ long.drop (long.length - short.length) = short ∧
      long.take (long.length - short.length) = List.replicate (long.length - short.length) 0 := by
  constructor
  · intro same
    have length : (List.replicate (long.length - short.length) (0 : UInt8) ++ short).length = long.length := by
      rw [List.length_append, List.length_replicate]
      omega
    have padded := toBytes_ofBytes (List.replicate (long.length - short.length) 0 ++ short)
    rw [length, ofBytes_replicate_append, ← same, toBytes_ofBytes] at padded
    generalize long.length - short.length = count at padded
    subst padded
    simp
  · intro both
    rw [← List.take_append_drop (long.length - short.length) long, both.1, both.2, ofBytes_replicate_append]

/-- Eight of the bytes, read as a machine word and written again. -/
theorem toBytes_limb {bytes : List UInt8} {start} (inside : start + 8 ≤ bytes.length) :
    toBytes 8 (UInt64.ofNat (ofBytes ((bytes.drop start).take 8))).toNat = (bytes.drop start).take 8 := by
  have width : ((bytes.drop start).take 8).length = 8 := by
    rw [List.length_take, List.length_drop]
    omega
  have fits := ofBytes_lt ((bytes.drop start).take 8)
  have same := toBytes_ofBytes ((bytes.drop start).take 8)
  rw [width] at fits same
  rw [UInt64.toNat_ofNat_of_lt' fits, same]

theorem take_append_drop_add (bytes : List UInt8) (start : Nat) :
    (bytes.drop start).take 8 ++ bytes.drop (start + 8) = bytes.drop start := by
  rw [← List.drop_drop, List.take_append_drop]

theorem ofBytes_toBytes {width number} (fits : number < 256 ^ width) : ofBytes (toBytes width number) = number := by
  induction width generalizing number with
  | zero =>
    rw [pow_zero, Nat.lt_one_iff] at fits
    rw [fits]
    rfl
  | succ width ih =>
    have high : number / 256 < 256 ^ width := Nat.div_lt_of_lt_mul (by rwa [pow_succ, mul_comm] at fits)
    have encoded : ofBytes (toBytes (width + 1) number) =
        256 * ofBytes (toBytes width (number / 256)) + number % 256 := by
      simp [toBytes, ofBytes, List.foldl_append]
    rw [encoded, ih high]
    exact Nat.div_add_mod number 256

theorem byteOf_toNat (high low : Fin 16) : (byteOf high low).toNat = 16 * high + low := by
  have fits : 16 * (high : Nat) + low < 2 ^ 8 := by omega
  simpa [byteOf] using Nat.mod_eq_of_lt fits

theorem ofBytes_pairs (pairs : List (Fin 16 × Fin 16)) :
    ofBytes (pairs.map fun pair => byteOf pair.1 pair.2) =
      ofNibbles (pairs.flatMap fun pair => [pair.1, pair.2]) := by
  suffices general : ∀ high, (pairs.map fun pair => byteOf pair.1 pair.2).foldl
      (fun high byte => 256 * high + byte.toNat) high =
        (pairs.flatMap fun pair => [pair.1, pair.2]).foldl
          (fun high (nibble : Fin 16) => 16 * high + nibble.val) high from general 0
  induction pairs with
  | nil => exact fun _ => rfl
  | cons pair rest ih =>
    intro high
    have step : 256 * high + (byteOf pair.1 pair.2).toNat = 16 * (16 * high + pair.1.val) + pair.2.val := by
      rw [byteOf_toNat]
      ring
    simp only [List.map_cons, List.foldl_cons, List.flatMap_cons, List.cons_append, List.nil_append, step]
    exact ih _

theorem ofNibbles_zero_cons (nibbles : List (Fin 16)) : ofNibbles (0 :: nibbles) = ofNibbles nibbles := rfl

theorem exists_pairs {α : Type*} : ∀ items : List α, items.length % 2 = 0 →
    ∃ pairs : List (α × α), items = pairs.flatMap (fun pair => [pair.1, pair.2]) ∧
      2 * pairs.length = items.length
  | [], _ => ⟨[], rfl, rfl⟩
  | [_], odd => absurd odd (by simp)
  | first :: second :: rest, even => by
      have evenRest : rest.length % 2 = 0 := by
        simp only [List.length_cons] at even
        omega
      obtain ⟨pairs, rfl, _⟩ := exists_pairs rest evenRest
      refine ⟨(first, second) :: pairs, rfl, ?_⟩
      simp only [List.length_cons]
      omega

end BigEndian
