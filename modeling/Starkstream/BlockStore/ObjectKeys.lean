import Starkstream.Compaction.Pruning
import Starkstream.Protocol.Hex

/-! # The keys of the block store

All the keys that the block store writes: two of them are the same text only if they
are the same key.  A block is deleted by the prefix of its number, which has no
separator at its end; as long as numbers have at most ten digits it lists exactly
the blocks and pending blocks with that number.
-/

namespace Starkstream.BlockStore

inductive ObjectKey where
  | block (cursor : Cursor)
  | pending (blockNumber generation : Nat)
  | segment (firstBlock : Nat) (name : String)
  | group (firstBlock : Nat)

namespace ObjectKey

def format : ObjectKey → String
  | block cursor => formatBlockKey cursor
  | pending blockNumber generation => formatPendingBlockKey blockNumber generation
  | segment firstBlock name => formatSegmentKey firstBlock name
  | group firstBlock => formatGroupKey firstBlock

def number : ObjectKey → Nat
  | block cursor => cursor.number
  | pending blockNumber _ => blockNumber
  | segment firstBlock _ => firstBlock
  | group firstBlock => firstBlock

/-- The key of a block or of a pending block with the given number. -/
def IsBlock (blockNumber : Nat) : ObjectKey → Prop
  | block cursor => cursor.number = blockNumber
  | pending number _ => number = blockNumber
  | segment _ _ | group _ => False

end ObjectKey

theorem blockObjectKey_inj {first second name other} (same : blockObjectKey first name = blockObjectKey second other) :
    first = second ∧ name = other := by
  have isSame := number_of_blockObjectKey same
  subst isSame
  have chars := congrArg String.toList same
  simp only [blockObjectKey, String.toList_append] at chars
  exact ⟨rfl, String.toList_inj.mp (List.append_cancel_left chars)⟩

theorem formatPendingBlockKey_eq (blockNumber generation : Nat) :
    formatPendingBlockKey blockNumber generation =
      blockObjectKey blockNumber ("pending-" ++ padded 4 generation) := by
  have separated : "/pending-" = "/" ++ "pending-" := rfl
  rw [formatPendingBlockKey, separated, blockObjectKey, String.append_assoc, String.append_assoc,
    String.append_assoc]

theorem formatBlockKey_inj {cursor other} (same : formatBlockKey cursor = formatBlockKey other) : cursor = other := by
  obtain ⟨sameNumber, sameText⟩ := blockObjectKey_inj same
  exact Cursor.ext sameNumber (Hash.display_injective sameText)

theorem head?_display (hash : Hash) : hash.display.toList.head? = some '0' := by
  rw [Hash.display]
  split
  · rfl
  · rw [String.toList_append]
    rfl

theorem formatBlockKey_ne_pending (cursor : Cursor) (blockNumber generation : Nat) :
    formatBlockKey cursor ≠ formatPendingBlockKey blockNumber generation := by
  intro same
  rw [formatPendingBlockKey_eq] at same
  obtain ⟨_, sameText⟩ := blockObjectKey_inj same
  have pending : ("pending-" ++ padded 4 generation).toList.head? = some 'p' := by
    rw [String.toList_append]
    rfl
  exact ne_of_head? (head?_display cursor.hash) pending (by decide) sameText

theorem head?_formatPendingBlockKey (blockNumber generation : Nat) :
    (formatPendingBlockKey blockNumber generation).toList.head? = some 'b' := by
  simp [formatPendingBlockKey, formatBlockPrefix, String.toList_append]

namespace ObjectKey

/-- The first letter of a key tells blocks, segments and groups apart. -/
def letter : ObjectKey → Char
  | block _ | pending _ _ => 'b'
  | segment _ _ => 's'
  | group _ => 'g'

theorem head?_format (key : ObjectKey) : key.format.toList.head? = some key.letter := by
  cases key with
  | block cursor => exact head?_formatBlockKey cursor
  | pending blockNumber generation => exact head?_formatPendingBlockKey blockNumber generation
  | segment firstBlock name => exact head?_formatSegmentKey firstBlock name
  | group firstBlock => exact head?_formatGroupKey firstBlock

theorem letter_of_format {key other : ObjectKey} (same : key.format = other.format) : key.letter = other.letter := by
  have heads := key.head?_format
  rw [same, other.head?_format] at heads
  exact (Option.some.inj heads).symm

theorem format_injective : Function.Injective format := by
  intro key other same
  have sameLetter := letter_of_format same
  cases key with
  | block cursor =>
    cases other with
    | block => exact congrArg block (formatBlockKey_inj same)
    | pending blockNumber generation => exact absurd same (formatBlockKey_ne_pending cursor blockNumber generation)
    | segment | group => exact absurd sameLetter (by simp [letter])
  | pending blockNumber generation =>
    cases other with
    | block cursor => exact absurd same.symm (formatBlockKey_ne_pending cursor blockNumber generation)
    | pending =>
      obtain ⟨rfl, rfl⟩ := formatPendingBlockKey_inj same
      rfl
    | segment | group => exact absurd sameLetter (by simp [letter])
  | segment =>
    cases other with
    | segment =>
      obtain ⟨rfl, rfl⟩ := formatSegmentKey_inj same
      rfl
    | block | pending | group => exact absurd sameLetter (by simp [letter])
  | group =>
    cases other with
    | group => exact congrArg group (formatGroupKey_inj same)
    | block | pending | segment => exact absurd sameLetter (by simp [letter])

theorem isListed_iff {key : ObjectKey} (short : key.number < 10 ^ 10) (blockNumber : Nat) :
    isListed blockNumber key.format = true ↔ key.IsBlock blockNumber := by
  have notBlock : key.letter ≠ 'b' → ¬isListed blockNumber key.format = true := by
    intro differs listed
    exact differs (Option.some.inj (key.head?_format.symm.trans (head?_of_isListed listed)))
  cases key with
  | block cursor =>
    constructor
    · intro listed
      exact (number_of_isListed short listed).symm
    · rintro rfl
      exact isListed_blockObjectKey cursor.number cursor.hash.display
  | pending number =>
    rw [format, formatPendingBlockKey_eq]
    constructor
    · intro listed
      exact (number_of_isListed short listed).symm
    · rintro rfl
      exact isListed_blockObjectKey number _
  | segment | group => exact iff_of_false (notBlock (by simp [letter])) id

end ObjectKey

/-- No two keys are the same text, and what is listed and deleted with the prefix of a
    number is the blocks and pending blocks with this number. -/
theorem objectKeys_exact :
    (∀ cursor other : Cursor, formatBlockKey cursor = formatBlockKey other → cursor = other) ∧
    (∀ number generation other otherGeneration : Nat,
      formatPendingBlockKey number generation = formatPendingBlockKey other otherGeneration →
        number = other ∧ generation = otherGeneration) ∧
    (∀ (cursor : Cursor) (number generation : Nat), formatBlockKey cursor ≠ formatPendingBlockKey number generation) ∧
    (∀ (first other : Nat) (name otherName : String),
      formatSegmentKey first name = formatSegmentKey other otherName → first = other ∧ name = otherName) ∧
    (∀ first other : Nat, formatGroupKey first = formatGroupKey other → first = other) ∧
    Function.Injective ObjectKey.format ∧
    (∀ (blockNumber : Nat) (key : ObjectKey), key.number < 10 ^ 10 →
      (isListed blockNumber key.format = true ↔ key.IsBlock blockNumber)) ∧
    (∀ (store : ObjectStore) (blockNumber : Nat) (key : ObjectKey), key.number < 10 ^ 10 →
      (key.format ∈ store.eraseAll (store.list blockNumber) ↔
        key.format ∈ store ∧ ¬key.IsBlock blockNumber)) := by
  refine ⟨fun _ _ => formatBlockKey_inj, fun _ _ _ _ => formatPendingBlockKey_inj, formatBlockKey_ne_pending,
    fun _ _ _ _ => formatSegmentKey_inj, fun _ _ => formatGroupKey_inj, ObjectKey.format_injective, ?_, ?_⟩
  · intro blockNumber key short
    exact key.isListed_iff short blockNumber
  · intro store blockNumber key short
    rw [ObjectStore.mem_eraseAll_list, ← ObjectKey.isListed_iff short, Bool.not_eq_true]

/-- A block without a hash and a pending block, both deleted with the prefix of block 7,
    which keeps the block with the number 70. -/
theorem objectKeys_exact_seven :
    isListed 7 (formatBlockKey ⟨7, ⟨[]⟩⟩) = true ∧ isListed 7 (formatPendingBlockKey 7 12) = true ∧
      ¬isListed 7 (formatBlockKey ⟨70, ⟨[1]⟩⟩) = true := by
  obtain ⟨_, _, _, _, _, _, listed, _⟩ := objectKeys_exact
  exact ⟨(listed 7 (.block ⟨7, ⟨[]⟩⟩) (by decide)).mpr rfl, (listed 7 (.pending 7 12) (by decide)).mpr rfl,
    fun isListed => absurd ((listed 7 (.block ⟨70, ⟨[1]⟩⟩) (by decide)).mp isListed) (by decide : ¬70 = 7)⟩

end Starkstream.BlockStore
