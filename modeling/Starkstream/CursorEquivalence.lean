import Starkstream.Core
import Starkstream.Lib.BigEndian

/-! # Equivalent cursors

Hashes come in different lengths: a client may leave leading zeros out or put more
of them in front.  Two cursors with hashes are equivalent exactly if they have the
same number and the hashes encode the same number.  The source compares slices; here
every subtraction and every slice of it is in bounds.
-/

namespace Starkstream

namespace Cursor

/-- The cursor stands for the block: it has its number, and its hash encodes the same
    number or is left out. -/
def Represents (cursor block : Cursor) : Prop :=
  cursor.number = block.number ∧
    (cursor.hash.isEmpty = true ∨ BigEndian.ofBytes cursor.hash.bytes = BigEndian.ofBytes block.hash.bytes)

theorem isEquivalent_iff {block cursor : Cursor} (hashed : block.hash.isEmpty = false) :
    block.isEquivalent cursor = true ↔ cursor.Represents block := by
  rw [isEquivalent, Represents]
  by_cases sameNumber : block.number = cursor.number
  · rw [if_neg (not_not.mpr sameNumber), and_iff_right sameNumber.symm, hashed]
    cases empty : cursor.hash.isEmpty with
    | true => exact iff_of_true rfl (.inl rfl)
    | false =>
      rw [or_iff_right Bool.false_ne_true, Bool.or_self, if_neg Bool.false_ne_true]
      rcases Nat.lt_trichotomy block.hash.len cursor.hash.len with shorter | same | longer
      · rw [if_neg shorter.ne, Nat.min_eq_left shorter.le, if_neg shorter.asymm, BigEndian.ofBytes_eq_iff shorter.le,
          Bool.and_eq_true, beq_iff_eq, beq_iff_eq, Nat.sub_self, List.drop_zero]
        exact and_congr_left' eq_comm
      · have none : cursor.hash.bytes.length - block.hash.bytes.length = 0 := Nat.sub_eq_zero_of_le same.ge
        rw [if_pos same, BigEndian.ofBytes_eq_iff same.le, none, List.drop_zero, beq_iff_eq]
        exact ⟨fun equal => ⟨congrArg Hash.bytes equal.symm, rfl⟩, fun both => congrArg Hash.mk both.1.symm⟩
      · rw [if_neg longer.ne', Nat.min_eq_right longer.le, if_pos longer, @eq_comm Nat,
          BigEndian.ofBytes_eq_iff longer.le, Bool.and_eq_true, beq_iff_eq, beq_iff_eq, Nat.sub_self, List.drop_zero]
        exact and_congr_left' eq_comm
  · exact iff_of_false (by simp [sameNumber]) fun both => sameNumber both.1.symm

/-- `usize` subtraction. -/
def usizeSub (left right : Nat) : Outcome Empty Nat :=
  if right ≤ left then .ok (left - right) else .error .panic

/-- The slice `bytes[start..stop]`. -/
def slice (bytes : List UInt8) (start stop : Nat) : Outcome Empty (List UInt8) :=
  if start ≤ stop ∧ stop ≤ bytes.length then .ok ((bytes.take stop).drop start) else .error .panic

/-- `isEquivalent` with the subtractions and slices that can panic. -/
def isEquivalentSlices (cursor other : Cursor) : Outcome Empty Bool :=
  if cursor.number ≠ other.number then .ok false
  else if cursor.hash.isEmpty || other.hash.isEmpty then .ok true
  else if cursor.hash.len = other.hash.len then .ok (cursor.hash == other.hash)
  else do
    let minLen := min cursor.hash.len other.hash.len
    let start ← usizeSub cursor.hash.len minLen
    let tail ← slice cursor.hash.bytes start cursor.hash.len
    let otherStart ← usizeSub other.hash.len minLen
    let otherTail ← slice other.hash.bytes otherStart other.hash.len
    if cursor.hash.len > other.hash.len then
      let lenDiff ← usizeSub cursor.hash.len other.hash.len
      let front ← slice cursor.hash.bytes 0 lenDiff
      return otherTail == tail && front == List.replicate lenDiff 0
    else
      let lenDiff ← usizeSub other.hash.len cursor.hash.len
      let front ← slice other.hash.bytes 0 lenDiff
      return tail == otherTail && front == List.replicate lenDiff 0

theorem usizeSub_of_le {left right} (le : right ≤ left) : usizeSub left right = .ok (left - right) := if_pos le

theorem slice_suffix (bytes : List UInt8) {start} (inside : start ≤ bytes.length) :
    slice bytes start bytes.length = .ok (bytes.drop start) := by
  rw [slice, if_pos ⟨inside, le_rfl⟩, List.take_length]

theorem slice_front {bytes : List UInt8} {stop} (inside : stop ≤ bytes.length) :
    slice bytes 0 stop = .ok (bytes.take stop) := by
  rw [slice, if_pos ⟨Nat.zero_le _, inside⟩, List.drop_zero]

theorem isEquivalentSlices_eq (cursor other : Cursor) :
    cursor.isEquivalentSlices other = .ok (cursor.isEquivalent other) := by
  have tail : slice cursor.hash.bytes (cursor.hash.len - min cursor.hash.len other.hash.len) cursor.hash.len =
      .ok (cursor.hash.bytes.drop (cursor.hash.len - min cursor.hash.len other.hash.len)) :=
    slice_suffix _ (Nat.sub_le _ _)
  have otherTail : slice other.hash.bytes (other.hash.len - min cursor.hash.len other.hash.len) other.hash.len =
      .ok (other.hash.bytes.drop (other.hash.len - min cursor.hash.len other.hash.len)) :=
    slice_suffix _ (Nat.sub_le _ _)
  have front : slice cursor.hash.bytes 0 (cursor.hash.len - other.hash.len) =
      .ok (cursor.hash.bytes.take (cursor.hash.len - other.hash.len)) := slice_front (Nat.sub_le _ _)
  have otherFront : slice other.hash.bytes 0 (other.hash.len - cursor.hash.len) =
      .ok (other.hash.bytes.take (other.hash.len - cursor.hash.len)) := slice_front (Nat.sub_le _ _)
  simp only [isEquivalentSlices, isEquivalent, usizeSub_of_le (Nat.min_le_left ..),
    usizeSub_of_le (Nat.min_le_right ..), bind, Except.bind, tail, otherTail]
  by_cases longer : cursor.hash.len > other.hash.len
  · simp only [if_pos longer, usizeSub_of_le longer.le, front]
    split_ifs <;> rfl
  · simp only [if_neg longer, usizeSub_of_le (not_lt.mp longer), otherFront]
    split_ifs <;> rfl

theorem isEquivalent_iff_ofBytes {cursor other : Cursor} (hashed : cursor.hash.isEmpty = false)
    (otherHashed : other.hash.isEmpty = false) :
    cursor.isEquivalent other = true ↔ cursor.number = other.number ∧
      BigEndian.ofBytes cursor.hash.bytes = BigEndian.ofBytes other.hash.bytes := by
  rw [isEquivalent_iff hashed, Represents, otherHashed, or_iff_right Bool.false_ne_true]
  exact and_congr eq_comm eq_comm

theorem eq_of_ofBytes {cursor other : Cursor} (sameNumber : cursor.number = other.number)
    (sameLength : cursor.hash.len = other.hash.len)
    (same : BigEndian.ofBytes cursor.hash.bytes = BigEndian.ofBytes other.hash.bytes) : cursor = other := by
  have bytes : cursor.hash.bytes = other.hash.bytes := by
    have encoded := BigEndian.toBytes_ofBytes cursor.hash.bytes
    rw [same, show cursor.hash.bytes.length = other.hash.bytes.length from sameLength,
      BigEndian.toBytes_ofBytes] at encoded
    exact encoded.symm
  exact Cursor.ext sameNumber (congrArg Hash.mk bytes)

/-- Equivalence of cursors with hashes is equality of their numbers and of the numbers
    that their hashes encode. -/
theorem isEquivalent_numeric :
    (∀ cursor other : Cursor, cursor.hash.isEmpty = false → other.hash.isEmpty = false →
      (cursor.isEquivalent other = true ↔ cursor.number = other.number ∧
        BigEndian.ofBytes cursor.hash.bytes = BigEndian.ofBytes other.hash.bytes)) ∧
    (∀ cursor : Cursor, cursor.hash.isEmpty = false → cursor.isEquivalent cursor = true) ∧
    (∀ cursor other : Cursor, cursor.hash.isEmpty = false → other.hash.isEmpty = false →
      cursor.isEquivalent other = true → other.isEquivalent cursor = true) ∧
    (∀ first second third : Cursor, first.hash.isEmpty = false → second.hash.isEmpty = false →
      third.hash.isEmpty = false → first.isEquivalent second = true → second.isEquivalent third = true →
        first.isEquivalent third = true) ∧
    (∀ cursor other : Cursor, cursor.isEquivalentSlices other = .ok (cursor.isEquivalent other)) ∧
    (∀ cursor first second : Cursor, cursor.hash.isEmpty = false → first.hash.isEmpty = false →
      second.hash.isEmpty = false → first.hash.len = second.hash.len → cursor.isEquivalent first = true →
        cursor.isEquivalent second = true → first = second) := by
  refine ⟨fun cursor other => isEquivalent_iff_ofBytes, ?_, ?_, ?_, isEquivalentSlices_eq, ?_⟩
  · intro cursor hashed
    exact (isEquivalent_iff_ofBytes hashed hashed).mpr ⟨rfl, rfl⟩
  · intro cursor other hashed otherHashed equivalent
    have same := (isEquivalent_iff_ofBytes hashed otherHashed).mp equivalent
    exact (isEquivalent_iff_ofBytes otherHashed hashed).mpr ⟨same.1.symm, same.2.symm⟩
  · intro first second third hashed secondHashed thirdHashed equivalent next
    have same := (isEquivalent_iff_ofBytes hashed secondHashed).mp equivalent
    have sameNext := (isEquivalent_iff_ofBytes secondHashed thirdHashed).mp next
    exact (isEquivalent_iff_ofBytes hashed thirdHashed).mpr ⟨same.1.trans sameNext.1, same.2.trans sameNext.2⟩
  · intro cursor first second hashed firstHashed secondHashed sameLength isFirst isSecond
    have same := (isEquivalent_iff_ofBytes hashed firstHashed).mp isFirst
    have sameToo := (isEquivalent_iff_ofBytes hashed secondHashed).mp isSecond
    exact eq_of_ofBytes (same.1.symm.trans sameToo.1) sameLength (same.2.symm.trans sameToo.2)

/-- A hash with a zero in front, without it, and with two. -/
theorem isEquivalent_numeric_zeros :
    (Cursor.mk 5 ⟨[0, 7]⟩).isEquivalent ⟨5, ⟨[0, 0, 7]⟩⟩ = true ∧
      (Cursor.mk 5 ⟨[7]⟩).isEquivalent ⟨5, ⟨[0, 0, 7]⟩⟩ = true := by
  obtain ⟨numeric, _, symmetric, transitive, _⟩ := isEquivalent_numeric
  have first : (Cursor.mk 5 ⟨[0, 7]⟩).isEquivalent ⟨5, ⟨[7]⟩⟩ = true := (numeric _ _ rfl rfl).mpr ⟨rfl, by decide⟩
  have second : (Cursor.mk 5 ⟨[0, 7]⟩).isEquivalent ⟨5, ⟨[0, 0, 7]⟩⟩ = true :=
    (numeric _ _ rfl rfl).mpr ⟨rfl, by decide⟩
  exact ⟨second, transitive _ _ _ rfl rfl rfl (symmetric _ _ rfl rfl first) second⟩

end Cursor

end Starkstream
