import Mathlib.Data.Nat.Digits.Defs
import Mathlib.Data.List.Basic
import Starkstream.Core

/-! # Keys of the objects in the block store

Numbers are padded with zeros to a fixed width, and longer numbers are written
out in full, so a padded number determines the number whatever its length.
-/

namespace Starkstream.BlockStore

/-- `{:0>width}`. -/
def padded (width number : Nat) : String := String.ofList ((Nat.toDigits 10 number).leftpad width '0')

def formatBlockPrefix (blockNumber : Nat) : String := "block" ++ "/" ++ padded 10 blockNumber

def formatPendingBlockKey (blockNumber generation : Nat) : String :=
  formatBlockPrefix blockNumber ++ "/pending-" ++ padded 4 generation

def formatBlockKey (cursor : Cursor) : String := formatBlockPrefix cursor.number ++ "/" ++ cursor.hash.display

def formatSegmentKey (firstBlock : Nat) (name : String) : String :=
  "segment" ++ "/" ++ padded 10 firstBlock ++ "/" ++ name

def formatGroupKey (firstBlock : Nat) : String := "group" ++ "/" ++ padded 10 firstBlock ++ "/index"

theorem ofDigitChars_padded (width number : Nat) : Nat.ofDigitChars 10 (padded width number).toList 0 = number := by
  rw [padded, String.toList_ofList, List.leftpad, Nat.ofDigitChars_append, Nat.ofDigitChars_replicate_zero,
    Nat.mul_zero, Nat.ofDigitChars_ten_toDigits]

theorem padded_injective (width : Nat) : Function.Injective (padded width) := by
  intro first second same
  rw [← ofDigitChars_padded width first, same, ofDigitChars_padded]

theorem isDigit_of_mem_padded {width number char} (member : char ∈ (padded width number).toList) :
    char.isDigit = true := by
  rw [padded, String.toList_ofList, List.leftpad] at member
  rcases List.mem_append.mp member with zero | digit
  · obtain rfl := List.eq_of_mem_replicate zero
    rfl
  · exact Nat.isDigit_of_mem_toDigits (by decide) (by decide) digit

theorem padded_append_inj {width first second} {left right : List Char} (leftEnds : left.head?.all (·.isDigit = false))
    (rightEnds : right.head?.all (·.isDigit = false))
    (same : (padded width first).toList ++ left = (padded width second).toList ++ right) :
    first = second ∧ left = right := by
  have digits : ∀ {number : Nat} {rest : List Char}, rest.head?.all (·.isDigit = false) →
      ((padded width number).toList ++ rest).takeWhile Char.isDigit = (padded width number).toList := by
    intro number rest ends
    rw [List.takeWhile_append_of_pos fun _ => isDigit_of_mem_padded]
    cases rest with
    | nil => simp
    | cons char =>
      have notDigit : char.isDigit = false := by simpa using ends
      simp [notDigit]
  have numbers : (padded width first).toList = (padded width second).toList := by
    rw [← digits leftEnds, same, digits rightEnds]
  refine ⟨padded_injective width (String.toList_inj.mp numbers), ?_⟩
  rw [numbers] at same
  exact List.append_cancel_left same

theorem formatPendingBlockKey_inj {number other generation otherGeneration}
    (same : formatPendingBlockKey number generation = formatPendingBlockKey other otherGeneration) :
    number = other ∧ generation = otherGeneration := by
  have chars := congrArg String.toList same
  simp only [formatPendingBlockKey, formatBlockPrefix, String.toList_append, List.append_assoc] at chars
  have behindPrefix := List.append_cancel_left (List.append_cancel_left chars)
  obtain ⟨rfl, behindNumber⟩ := padded_append_inj (by rfl) (by rfl) behindPrefix
  refine ⟨rfl, padded_injective 4 (String.toList_inj.mp ?_)⟩
  exact List.append_cancel_left behindNumber

theorem formatSegmentKey_inj {first other name otherName}
    (same : formatSegmentKey first name = formatSegmentKey other otherName) : first = other ∧ name = otherName := by
  have chars := congrArg String.toList same
  simp only [formatSegmentKey, String.toList_append, List.append_assoc] at chars
  have behindPrefix := List.append_cancel_left (List.append_cancel_left chars)
  obtain ⟨rfl, behindNumber⟩ := padded_append_inj (by rfl) (by rfl) behindPrefix
  exact ⟨rfl, String.toList_inj.mp (List.append_cancel_left behindNumber)⟩

theorem formatGroupKey_inj {first other} (same : formatGroupKey first = formatGroupKey other) : first = other := by
  have chars := congrArg String.toList same
  simp only [formatGroupKey, String.toList_append, List.append_assoc] at chars
  have behindPrefix := List.append_cancel_left (List.append_cancel_left chars)
  exact (padded_append_inj (by rfl) (by rfl) behindPrefix).1

/-! ## Keys of different kinds -/

theorem head?_formatBlockPrefix (blockNumber : Nat) : (formatBlockPrefix blockNumber).toList.head? = some 'b' := by
  simp [formatBlockPrefix, String.toList_append]

theorem head?_formatBlockKey (cursor : Cursor) : (formatBlockKey cursor).toList.head? = some 'b' := by
  simp [formatBlockKey, formatBlockPrefix, String.toList_append]

theorem head?_formatSegmentKey (firstBlock : Nat) (name : String) :
    (formatSegmentKey firstBlock name).toList.head? = some 's' := by
  simp [formatSegmentKey, String.toList_append]

theorem head?_formatGroupKey (firstBlock : Nat) : (formatGroupKey firstBlock).toList.head? = some 'g' := by
  simp [formatGroupKey, String.toList_append]

theorem ne_of_head? {left right : String} {first second} (leftHead : left.toList.head? = some first)
    (rightHead : right.toList.head? = some second) (differ : first ≠ second) : left ≠ right := by
  rintro rfl
  exact differ (Option.some.inj (leftHead.symm.trans rightHead))

/-! ## Listing by prefix -/

/-- The objects that a listing with the prefix of a block number returns. -/
def isListed (blockNumber : Nat) (key : String) : Bool := (formatBlockPrefix blockNumber).toList.isPrefixOf key.toList

/-- Only keys of blocks are listed. -/
theorem head?_of_isListed {blockNumber key} (listed : isListed blockNumber key = true) :
    key.toList.head? = some 'b' := by
  obtain ⟨_, isRest⟩ := List.isPrefixOf_iff_prefix.mp listed
  rw [← isRest, List.head?_append, head?_formatBlockPrefix]
  rfl

/-- The keys of everything that is stored for a block number, pending blocks included. -/
def blockObjectKey (blockNumber : Nat) (name : String) : String := formatBlockPrefix blockNumber ++ "/" ++ name

theorem isListed_blockObjectKey (blockNumber : Nat) (name : String) :
    isListed blockNumber (blockObjectKey blockNumber name) = true := by
  refine List.isPrefixOf_iff_prefix.mpr ?_
  rw [blockObjectKey, String.append_assoc, String.toList_append]
  exact List.prefix_append _ _

theorem number_of_blockObjectKey {first second name other}
    (same : blockObjectKey first name = blockObjectKey second other) : first = second := by
  have chars := congrArg String.toList same
  simp only [blockObjectKey, formatBlockPrefix, String.toList_append, List.append_assoc] at chars
  have behindPrefix := List.append_cancel_left (List.append_cancel_left chars)
  exact (padded_append_inj (by rfl) (by rfl) behindPrefix).1

/-- A number of at most ten digits is padded to ten, so that the prefixes of other
    numbers do not list its objects. -/
theorem number_of_isListed {blockNumber number name} (short : number < 10 ^ 10)
    (listed : isListed blockNumber (blockObjectKey number name) = true) : blockNumber = number := by
  have isPrefix := List.isPrefixOf_iff_prefix.mp listed
  simp only [blockObjectKey, formatBlockPrefix, String.toList_append, List.append_assoc] at isPrefix
  have digits := (List.prefix_append_right_inj _).mp ((List.prefix_append_right_inj _).mp isPrefix)
  have width : (padded 10 number).toList.length = 10 := by
    rw [padded, String.toList_ofList, List.length_leftpad]
    exact max_eq_left ((Nat.length_toDigits_le_iff (by decide) (by decide)).mpr short)
  have wide : 10 ≤ (padded 10 blockNumber).toList.length := by
    rw [padded, String.toList_ofList, List.length_leftpad]
    exact le_max_left _ _
  obtain ⟨more, isMore⟩ := List.prefix_of_prefix_length_le (List.prefix_append _ _) digits (width.trans_le wide)
  rw [← isMore, List.prefix_append_right_inj] at digits
  cases more with
  | nil => exact (padded_injective 10 (String.toList_inj.mp ((List.append_nil _).symm.trans isMore))).symm
  | cons char =>
    -- what follows the ten digits is a slash
    have slash : char = '/' := (List.cons_prefix_cons.mp digits).1
    have member : char ∈ (padded 10 blockNumber).toList := by
      rw [← isMore]
      exact List.mem_append_right _ List.mem_cons_self
    have isDigit := isDigit_of_mem_padded member
    rw [slash] at isDigit
    exact absurd isDigit (by decide)

/-- A longer number has the prefix of the number that its first digits are. -/
theorem isListed_of_longer {blockNumber digit} (wide : 10 ^ 9 ≤ blockNumber) (isDigit : digit < 10) (name : String) :
    isListed blockNumber (blockObjectKey (10 * blockNumber + digit) name) = true := by
  have unpadded {number : Nat} (large : 10 ^ 9 ≤ number) :
      padded 10 number = String.ofList (Nat.toDigits 10 number) := by
    have long : ¬ (Nat.toDigits 10 number).length ≤ 9 := fun short =>
      absurd ((Nat.length_toDigits_le_iff (by decide) (by decide)).mp short) (not_lt.mpr large)
    have none : 10 - (Nat.toDigits 10 number).length = 0 := by omega
    rw [padded, List.leftpad, none, List.replicate_zero, List.nil_append]
  refine List.isPrefixOf_iff_prefix.mpr ?_
  simp only [blockObjectKey, formatBlockPrefix, String.toList_append, List.append_assoc]
  refine (List.prefix_append_right_inj _).mpr ((List.prefix_append_right_inj _).mpr ?_)
  rw [unpadded wide, unpadded (by omega), String.toList_ofList, String.toList_ofList,
    ← Nat.toDigits_append_toDigits (by decide) (by omega) isDigit, List.append_assoc]
  exact List.prefix_append _ _

end Starkstream.BlockStore
