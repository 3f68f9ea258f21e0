import Starkstream.Core
import Starkstream.Lib.BinarySearch

/-! # Bitmap indexes

An index maps scalar values to the rows that have them.  It is built in an
ordered map and stored as two parallel lists, which are searched with a
comparison of their own: values of different variants always compare as greater,
whichever of the two comes first in the order of the map.  Fixed-width integers
are numbers here and byte arrays are lists; a bitmap is the set of its rows, and
the format in which it is written is left out.
-/

namespace Starkstream

/-- The rows of a `RoaringBitmap`. -/
abbrev Bitmap := Finset Nat

/-- Fixed-size scalar values. -/
inductive ScalarValue where
  | null
  | bool (value : Bool)
  | int32 (value : Int)
  | uint8 (value : Nat)
  | uint16 (value : Nat)
  | uint32 (value : Nat)
  | uint64 (value : Nat)
  | b160 (bytes : List UInt8)
  | b256 (bytes : List UInt8)
  | b384 (bytes : List UInt8)
  deriving DecidableEq

variable {key : ScalarValue}

namespace ScalarValue

/-- The position of the variant in the declaration. -/
def variant : ScalarValue → Nat
  | null => 0
  | bool _ => 1
  | int32 _ => 2
  | uint8 _ => 3
  | uint16 _ => 4
  | uint32 _ => 5
  | uint64 _ => 6
  | b160 _ => 7
  | b256 _ => 8
  | b384 _ => 9

def payload : ScalarValue → List Int
  | null => []
  | bool value => [(value.toNat : Int)]
  | int32 value => [value]
  | uint8 value | uint16 value | uint32 value | uint64 value => [(value : Int)]
  | b160 bytes | b256 bytes | b384 bytes => bytes.map fun byte => (byte.toNat : Int)

/-- The value that a variant and a payload were taken from. -/
def restore : Nat → List Int → ScalarValue
  | 1, [value] => bool (value == 1)
  | 2, [value] => int32 value
  | 3, [value] => uint8 value.toNat
  | 4, [value] => uint16 value.toNat
  | 5, [value] => uint32 value.toNat
  | 6, [value] => uint64 value.toNat
  | 7, bytes => b160 (bytes.map fun byte => UInt8.ofNat byte.toNat)
  | 8, bytes => b256 (bytes.map fun byte => UInt8.ofNat byte.toNat)
  | 9, bytes => b384 (bytes.map fun byte => UInt8.ofNat byte.toNat)
  | _, _ => null

theorem restore_payload (value : ScalarValue) : restore value.variant value.payload = value := by
  cases value with
  | bool value => cases value <;> rfl
  | null | int32 | uint8 | uint16 | uint32 | uint64 => rfl
  | b160 | b256 | b384 => simp [variant, payload, restore, Function.comp_def]

def rank (value : ScalarValue) : List Int := (value.variant : Int) :: value.payload

/-- The order the source derives: by variant, then by value. -/
instance : Ord ScalarValue := ⟨compareOn rank⟩

instance : Std.TransOrd ScalarValue := inferInstanceAs (Std.TransCmp (compareOn rank))

instance : Std.LawfulEqOrd ScalarValue where
  eq_of_compare {left right} same := by
    have sameRank : left.rank = right.rank := Std.LawfulEqOrd.eq_of_compare same
    rw [rank, rank, List.cons.injEq] at sameRank
    rw [← restore_payload left, ← restore_payload right, Int.ofNat.inj sameRank.1, sameRank.2]

/-- How the entries of a stored index are compared with the key that is looked for. -/
def cmpScalarValue (entry key : ScalarValue) : Ordering :=
  if entry.variant = key.variant then compare entry.payload key.payload else .gt

theorem cmpScalarValue_of_variant {entry : ScalarValue} (same : entry.variant = key.variant) :
    cmpScalarValue entry key = compare entry key := by
  have onRank : compare entry key = compare entry.rank key.rank := rfl
  rw [cmpScalarValue, if_pos same, onRank, rank, rank, same, List.compare_cons_cons]
  simp

theorem cmpScalarValue_of_variant_ne {entry : ScalarValue} (different : entry.variant ≠ key.variant) :
    cmpScalarValue entry key = .gt := if_neg different

end ScalarValue

abbrev BitmapIndex := BinarySearch.Table ScalarValue Bitmap

namespace BitmapIndex

def get (index : BitmapIndex) (key : ScalarValue) : Option Bitmap :=
  BinarySearch.Table.get index fun entry => entry.cmpScalarValue key

/-- A key that is found is one of the index. -/
theorem mem_keys_of_get {index : BitmapIndex} {rows} (found : index.get key = some rows) : key ∈ index.keys := by
  obtain ⟨other, member, equal⟩ := BinarySearch.Table.mem_keys_of_get found
  by_cases same : other.variant = key.variant
  · rw [ScalarValue.cmpScalarValue_of_variant same] at equal
    rwa [Std.LawfulEqOrd.eq_of_compare equal] at member
  · rw [ScalarValue.cmpScalarValue_of_variant_ne same] at equal
    cases equal

end BitmapIndex

abbrev BitmapIndexBuilder := Std.ExtTreeMap ScalarValue Bitmap

namespace BitmapIndexBuilder

def insert (builder : BitmapIndexBuilder) (key : ScalarValue) (value : Nat) : BitmapIndexBuilder :=
  builder.alter key fun rows => some (Insert.insert value (rows.getD ∅))

def insertSome (builder : BitmapIndexBuilder) (key : Option ScalarValue) (value : Nat) : BitmapIndexBuilder :=
  match key with
  | some key => BitmapIndexBuilder.insert builder key value
  | none => builder

def build (builder : BitmapIndexBuilder) : BitmapIndex := BinarySearch.Table.ofMap builder

def rows (builder : BitmapIndexBuilder) (key : ScalarValue) : Bitmap := builder[key]?.getD ∅

def Uniform (builder : BitmapIndexBuilder) (variant : Nat) : Prop :=
  ∀ key ∈ builder, key.variant = variant

variable {builder : BitmapIndexBuilder}

theorem mem_rows_insert {other value row} :
    row ∈ rows (BitmapIndexBuilder.insert builder key value) other ↔
      row ∈ rows builder other ∨ (key = other ∧ row = value) := by
  by_cases same : key = other
  · subst same
    simp [rows, BitmapIndexBuilder.insert, or_comm]
  · simp [rows, BitmapIndexBuilder.insert, Std.ExtTreeMap.getElem?_alter, same]

theorem Uniform.insert (uniform : Uniform builder key.variant) (value : Nat) :
    Uniform (BitmapIndexBuilder.insert builder key value) key.variant := by
  intro other member
  by_cases same : key = other
  · rw [same]
  · have before : other ∈ builder := by
      simpa [BitmapIndexBuilder.insert, Std.ExtTreeMap.mem_alter, same] using member
    exact uniform other before

/-- A stored index answers as the map it was built from, for keys of every
    variant, when its own keys are of one variant. -/
theorem get_build {variant} (uniform : Uniform builder variant) (key : ScalarValue) :
    (build builder).get key = builder[key]? := by
  have ofVariant : ∀ entry ∈ (build builder).entries, entry.1.variant = variant := by
    intro entry member
    have found := Std.ExtTreeMap.mem_toList_iff_getElem?_eq_some.mp member
    exact uniform entry.1 (Std.ExtTreeMap.mem_iff_isSome_getElem?.mpr (by rw [found]; rfl))
  by_cases same : key.variant = variant
  · exact BinarySearch.Table.get_ofMap fun entry member =>
      ScalarValue.cmpScalarValue_of_variant ((ofVariant entry member).trans same.symm)
  · have missing : builder[key]? = none :=
      Std.ExtTreeMap.getElem?_eq_none fun member => same (uniform key member)
    rw [missing]
    exact BinarySearch.Table.get_eq_none_of_greater fun entry member =>
      ScalarValue.cmpScalarValue_of_variant_ne fun equal => same (equal.symm.trans (ofVariant entry member))

end BitmapIndexBuilder

/-- Data index. -/
inductive Index where
  | bitmap (index : BitmapIndex)
  | empty

end Starkstream
