import Starkstream.Query.Filter
import Mathlib.Logic.Equiv.Finset

/-! # Archived indexes

Indexes and joins are read from storage as two lists, the keys and the values,
with every bitmap in the format of the `roaring` crate, and the rows of a fragment
are given by two machine integers.  Reading an archive gives what the tables of
`Query.Index` and `Query.Fragment` give, and with that an archive answers any key
from the calls that filled its builder.
-/

namespace Starkstream

/-- The format in which the `roaring` crate writes a bitmap. -/
structure Roaring where
  serialize : Bitmap → List UInt8
  deserialize : List UInt8 → Option Bitmap
  restores : ∀ bitmap, deserialize (serialize bitmap) = some bitmap

namespace Roaring

/-- The values of an array container are `u16` in little-endian order. -/
def u16Bytes (value : Nat) : List UInt8 := [.ofNat value, .ofNat (value / 256)]

def u16Values : List UInt8 → List Nat
  | low :: high :: rest => (low.toNat + high.toNat * 256) :: u16Values rest
  | _ => []

theorem u16Values_u16Bytes {values : List Nat} (small : ∀ value ∈ values, value < 2 ^ 16) :
    u16Values (values.flatMap u16Bytes) = values := by
  induction values with
  | nil => rfl
  | cons value rest ih =>
    obtain ⟨first, others⟩ := List.forall_mem_cons.mp small
    have whole : value % 256 + value / 256 % 256 * 256 = value := by omega
    simp [u16Bytes, u16Values, ih others, whole]

/-- A bitmap with one array container, as the crate writes it.  A bitmap that needs another
    container is not written in the format here. -/
def oneArray : Roaring where
  serialize bitmap :=
    if bitmap = ∅ then [0x3A, 0x30, 0, 0, 0, 0, 0, 0]
    else if bitmap.card ≤ 4096 ∧ ∀ value ∈ bitmap, value < 2 ^ 16 then
      [0x3A, 0x30, 0, 0, 1, 0, 0, 0, 0, 0] ++ u16Bytes (bitmap.card - 1) ++ [16, 0, 0, 0] ++
        (bitmap.sort (· ≤ ·)).flatMap u16Bytes
    else 0 :: List.replicate (Encodable.encode bitmap) 0
  deserialize
    | 0 :: bytes => Encodable.decode bytes.length
    | bytes => some (u16Values (bytes.drop 16)).toFinset
  restores bitmap := by
    split_ifs with empty small
    · simp [empty, u16Values]
    · have restored := u16Values_u16Bytes fun value member => small.2 value ((Finset.mem_sort (· ≤ ·)).mp member)
      simp [u16Bytes, restored]
    · simp

end Roaring

abbrev ArchivedBitmapIndex := BinarySearch.Arrays ScalarValue (List UInt8)

abbrev ArchivedJoinToOneIndex := BinarySearch.Arrays Nat Nat

abbrev ArchivedJoinToManyIndex := BinarySearch.Arrays Nat (List UInt8)

inductive ArchivedIndex where
  | bitmap (index : ArchivedBitmapIndex)
  | empty

structure ArchivedIndexFragment where
  rangeStart : UInt32
  rangeLen : UInt32
  indexes : List ArchivedIndex

/-- Read the value that a search found; the position of a missing value panics. -/
def readValue {ε ν : Type} : Option (Option ν) → Outcome ε (Option ν)
  | none => .ok none
  | some none => .error .panic
  | some (some value) => .ok (some value)

/-- Read the bitmap that a search found; bytes that are no bitmap panic. -/
def Roaring.readBitmap {ε : Type} (roaring : Roaring) (found : Option (Option (List UInt8))) :
    Outcome ε (Option Bitmap) := do
  match ← readValue found with
  | none => return none
  | some value =>
    match roaring.deserialize value with
    | none => .error .panic
    | some bitmap => return some bitmap

def ArchivedBitmapIndex.get {ε : Type} (roaring : Roaring) (index : ArchivedBitmapIndex) (key : ScalarValue) :
    Outcome ε (Option Bitmap) :=
  roaring.readBitmap (index.lookup fun entry => entry.cmpScalarValue key)

def ArchivedJoinToOneIndex.get {ε : Type} (index : ArchivedJoinToOneIndex) (key : Nat) : Outcome ε (Option Nat) :=
  readValue (index.lookup fun entry => compare entry key)

def ArchivedJoinToManyIndex.get {ε : Type} (roaring : Roaring) (index : ArchivedJoinToManyIndex) (key : Nat) :
    Outcome ε (Option Bitmap) :=
  roaring.readBitmap (index.lookup fun entry => compare entry key)

namespace Query.Filter

/-- `Filter.narrow`, on an archive. -/
def narrowArchived (roaring : Roaring) (indexes : ArchivedIndexFragment) :
    List Condition → Bitmap → Outcome FilterError Bitmap
  | [], result => .ok result
  | cond :: rest, result =>
    match indexes.indexes[cond.indexId.toNat]? with
    | none => Outcome.fail ⟨⟩ []
    | some .empty => narrowArchived roaring indexes rest result
    | some (.bitmap bitmap) => do
        match ← ArchivedBitmapIndex.get roaring bitmap cond.key with
        | some rows => narrowArchived roaring indexes rest (result ∩ rows)
        | none => return ∅

/-- `Filter.filter`, on an archive: the end of the range wraps around. -/
def filterArchived (roaring : Roaring) (filter : Filter) (indexes : ArchivedIndexFragment) :
    Outcome FilterError Bitmap :=
  narrowArchived roaring indexes filter.conditions
    (Finset.Ico indexes.rangeStart.toNat (indexes.rangeStart + indexes.rangeLen).toNat)

end Query.Filter

section
variable (roaring : Roaring)

def BitmapIndex.archive (index : BitmapIndex) : ArchivedBitmapIndex :=
  BinarySearch.Table.toArrays roaring.serialize index

def JoinToOneIndex.archive (index : JoinToOneIndex) : ArchivedJoinToOneIndex :=
  BinarySearch.Table.toArrays id index

def JoinToManyIndex.archive (index : JoinToManyIndex) : ArchivedJoinToManyIndex :=
  BinarySearch.Table.toArrays roaring.serialize index

def Index.archive : Index → ArchivedIndex
  | .bitmap index => .bitmap (index.archive roaring)
  | .empty => .empty

def IndexFragment.archive (fragment : IndexFragment) : ArchivedIndexFragment where
  rangeStart := .ofNat fragment.rangeStart
  rangeLen := .ofNat fragment.rangeLen
  indexes := fragment.indexes.map fun index => index.index.archive roaring

theorem Roaring.readBitmap_serialized {ε : Type} (found : Option Bitmap) :
    roaring.readBitmap (ε := ε) (found.map fun bitmap => some (roaring.serialize bitmap)) = .ok found := by
  cases found with
  | none => rfl
  | some => simp [Roaring.readBitmap, readValue, roaring.restores, pure, Except.pure, bind, Except.bind]

theorem BitmapIndex.get_archive {ε : Type} (index : BitmapIndex) (key : ScalarValue) :
    ArchivedBitmapIndex.get (ε := ε) roaring (index.archive roaring) key = .ok (index.get key) := by
  rw [ArchivedBitmapIndex.get, BitmapIndex.archive, BinarySearch.Table.lookup_toArrays,
    roaring.readBitmap_serialized, BitmapIndex.get]

theorem JoinToOneIndex.get_archive {ε : Type} (index : JoinToOneIndex) (key : Nat) :
    ArchivedJoinToOneIndex.get (ε := ε) index.archive key = .ok (index.get key) := by
  rw [ArchivedJoinToOneIndex.get, JoinToOneIndex.archive, BinarySearch.Table.lookup_toArrays, JoinToOneIndex.get]
  cases BinarySearch.Table.get index fun entry => compare entry key with
  | none | some => rfl

theorem JoinToManyIndex.get_archive {ε : Type} (index : JoinToManyIndex) (key : Nat) :
    ArchivedJoinToManyIndex.get (ε := ε) roaring (index.archive roaring) key = .ok (index.get key) := by
  rw [ArchivedJoinToManyIndex.get, JoinToManyIndex.archive, BinarySearch.Table.lookup_toArrays,
    roaring.readBitmap_serialized, JoinToManyIndex.get]

namespace Query.Filter

theorem narrow_archive (fragment : IndexFragment) (conditions : List Condition) (start : Bitmap) :
    narrowArchived roaring (fragment.archive roaring) conditions start = narrow fragment conditions start := by
  induction conditions generalizing start with
  | nil => rfl
  | cons condition rest ih =>
    simp only [narrowArchived, narrow, IndexFragment.archive, List.getElem?_map]
    cases fragment.indexes[condition.indexId.toNat]? with
    | none => rfl
    | some condIndex =>
      obtain ⟨-, index⟩ := condIndex
      cases index with
      | empty => exact ih start
      | bitmap bitmap =>
        simp only [Option.map_some, Index.archive, BitmapIndex.get_archive]
        cases bitmap.get condition.key with
        | none => rfl
        | some rows => exact ih (start ∩ rows)

/-- On an archive the filter selects what it selects on the tables, when the end of
    the range is a machine integer too. -/
theorem filter_archive (filter : Filter) {fragment : IndexFragment}
    (fits : fragment.rangeStart + fragment.rangeLen < 2 ^ 32) :
    filter.filterArchived roaring (fragment.archive roaring) = filter.filter fragment := by
  have startFits : fragment.rangeStart < 2 ^ 32 := (Nat.le_add_right _ _).trans_lt fits
  have lenFits : fragment.rangeLen < 2 ^ 32 := (Nat.le_add_left _ _).trans_lt fits
  rw [filterArchived, Filter.filter, narrow_archive, IndexFragment.archive, UInt32.toNat_add,
    UInt32.toNat_ofNat_of_lt' startFits, UInt32.toNat_ofNat_of_lt' lenFits, Nat.mod_eq_of_lt fits]

end Query.Filter

end

/-! ## Calls on a builder -/

inductive Bound where
  | included (value : Nat)
  | excluded (value : Nat)
  | unbounded
  deriving DecidableEq

/-- `RangeBounds<u32>`. -/
structure RowRange where
  start : Bound
  stop : Bound
  deriving DecidableEq

namespace RowRange

def first (range : RowRange) : Nat :=
  match range.start with
  | .included value => value
  | .excluded value => value + 1
  | .unbounded => 0

def beyond (range : RowRange) : Nat :=
  match range.stop with
  | .included value => value + 1
  | .excluded value => value
  | .unbounded => 2 ^ 32

def rows (range : RowRange) : Bitmap := Finset.Ico range.first range.beyond

end RowRange

def BitmapIndexBuilder.insertRange (builder : BitmapIndexBuilder) (key : ScalarValue) (range : RowRange) :
    BitmapIndexBuilder :=
  builder.alter key fun rows => some (rows.getD ∅ ∪ range.rows)

def JoinToManyIndexBuilder.insertRange (builder : JoinToManyIndexBuilder) (key : Nat) (range : RowRange) :
    JoinToManyIndexBuilder :=
  builder.alter key fun rows => some (rows.getD ∅ ∪ range.rows)

/-- A call that adds rows under a key. -/
inductive Insertion (κ : Type) where
  | insert (key : κ) (value : Nat)
  | insertRange (key : κ) (range : RowRange)
  deriving DecidableEq

namespace Insertion

def key {κ : Type} : Insertion κ → κ
  | insert key _ | insertRange key _ => key

def rows {κ : Type} : Insertion κ → Bitmap
  | insert _ value => {value}
  | insertRange _ range => range.rows

/-- What the calls have put under a key: nothing at all, or the rows of the calls
    with that key. -/
structure Answer {κ : Type} (calls : List (Insertion κ)) (key : κ) (answer : Option Bitmap) : Prop where
  eq_none_iff : answer = none ↔ ∀ call ∈ calls, call.key ≠ key
  mem_iff : ∀ rows, answer = some rows → ∀ row, row ∈ rows ↔ ∃ call ∈ calls, call.key = key ∧ row ∈ call.rows

variable {κ : Type}

theorem Answer.nil (key : κ) : Answer [] key none := ⟨by simp, by simp⟩

variable {answer : Option Bitmap}

variable {calls : List (Insertion κ)}

theorem Answer.concat_other {key} (known : Answer calls key answer) {call : Insertion κ} (other : call.key ≠ key) :
    Answer (calls ++ [call]) key answer where
  eq_none_iff := by simpa [or_imp, forall_and, other] using known.eq_none_iff
  mem_iff rows found row := by simpa [or_and_right, exists_or, other] using known.mem_iff rows found row

theorem Answer.mem_getD {key} (known : Answer calls key answer) (row : Nat) :
    row ∈ answer.getD ∅ ↔ ∃ call ∈ calls, call.key = key ∧ row ∈ call.rows := by
  cases answer with
  | none =>
    have missing := known.eq_none_iff.mp rfl
    constructor
    · intro member
      simp at member
    · intro ⟨call, member, same, _⟩
      exact absurd same (missing call member)
  | some rows => exact known.mem_iff rows rfl row

theorem Answer.concat {call : Insertion κ} (known : Answer calls call.key answer) :
    Answer (calls ++ [call]) call.key (some (answer.getD ∅ ∪ call.rows)) where
  eq_none_iff := by simp [or_imp, forall_and]
  mem_iff rows found row := by
    cases found
    simp [known.mem_getD, or_and_right, exists_or]

/-- A map that is altered by one call after the other holds what the calls have put
    under each key. -/
theorem answer_foldl [Ord κ] [Std.TransOrd κ] [Std.LawfulEqOrd κ]
    {apply : Std.ExtTreeMap κ Bitmap → Insertion κ → Std.ExtTreeMap κ Bitmap}
    (applies : ∀ map call, apply map call = map.alter call.key fun rows => some (rows.getD ∅ ∪ call.rows))
    (calls : List (Insertion κ)) (key : κ) : Answer calls key (calls.foldl apply ∅)[key]? := by
  induction calls using List.reverseRecOn with
  | nil =>
    rw [List.foldl_nil, Std.ExtTreeMap.getElem?_empty]
    exact .nil key
  | append_singleton calls call ih =>
    rw [List.foldl_concat, applies, Std.ExtTreeMap.getElem?_alter]
    by_cases same : call.key = key
    · subst same
      rw [if_pos Std.ReflOrd.compare_self]
      exact ih.concat
    · rw [if_neg fun equal => same (Std.LawfulEqOrd.eq_of_compare equal)]
      exact ih.concat_other same

end Insertion

namespace BitmapIndexBuilder

def apply (builder : BitmapIndexBuilder) : Insertion ScalarValue → BitmapIndexBuilder
  | .insert key value => BitmapIndexBuilder.insert builder key value
  | .insertRange key range => builder.insertRange key range

def ofCalls (calls : List (Insertion ScalarValue)) : BitmapIndexBuilder := calls.foldl apply ∅

theorem answer_ofCalls (calls : List (Insertion ScalarValue)) (key : ScalarValue) :
    Insertion.Answer calls key (ofCalls calls)[key]? := by
  refine Insertion.answer_foldl (fun map call => ?_) calls key
  cases call with
  | insert key => simp only [apply, BitmapIndexBuilder.insert, Insertion.key, Insertion.rows,
      Finset.union_singleton]
  | insertRange => rfl

theorem Uniform.ofCalls {calls variant} (uniform : ∀ call ∈ calls, call.key.variant = variant) :
    Uniform (ofCalls calls) variant := by
  intro key member
  by_contra different
  have missing : (BitmapIndexBuilder.ofCalls calls)[key]? = none :=
    (answer_ofCalls calls key).eq_none_iff.mpr fun call called same => different (same ▸ uniform call called)
  rw [Std.ExtTreeMap.mem_iff_isSome_getElem?, missing] at member
  cases member

end BitmapIndexBuilder

namespace JoinToOneIndexBuilder

/-- The builder after the calls of `insert`. -/
def ofCalls (calls : List (Nat × Nat)) : JoinToOneIndexBuilder :=
  calls.foldl (fun builder call => JoinToOneIndexBuilder.insert builder call.1 call.2) ∅

theorem getElem?_ofCalls (calls : List (Nat × Nat)) (key : Nat) :
    (ofCalls calls)[key]? = ((calls.filter fun call => call.1 = key).getLast?).map Prod.snd := by
  induction calls using List.reverseRecOn with
  | nil => simp [ofCalls]
  | append_singleton calls call ih =>
    rw [ofCalls, List.foldl_concat, ← ofCalls, JoinToOneIndexBuilder.insert, Std.ExtTreeMap.getElem?_insert, ih]
    by_cases same : call.1 = key
    · simp [same]
    · simp [same]

end JoinToOneIndexBuilder

namespace JoinToManyIndexBuilder

def apply (builder : JoinToManyIndexBuilder) : Insertion Nat → JoinToManyIndexBuilder
  | .insert key value => JoinToManyIndexBuilder.insert builder key value
  | .insertRange key range => builder.insertRange key range

def ofCalls (calls : List (Insertion Nat)) : JoinToManyIndexBuilder := calls.foldl apply ∅

theorem answer_ofCalls (calls : List (Insertion Nat)) (key : Nat) :
    Insertion.Answer calls key (ofCalls calls)[key]? := by
  refine Insertion.answer_foldl (fun map call => ?_) calls key
  cases call with
  | insert key => simp only [apply, JoinToManyIndexBuilder.insert, Insertion.key, Insertion.rows,
      Finset.union_singleton]
  | insertRange => rfl

end JoinToManyIndexBuilder

/-- The index that calls fill; an index that no builder was made for is empty. -/
def Index.ofCalls : Option (List (Insertion ScalarValue)) → Index
  | none => .empty
  | some calls => .bitmap (BitmapIndexBuilder.ofCalls calls).build

/-- The indexes of the fragment are filled by the given calls, those of one index
    with keys of one variant. -/
structure IndexFragment.FilledBy (fragment : IndexFragment) (sources : List (Option (List (Insertion ScalarValue)))) :
    Prop where
  indexes : fragment.indexes.map (·.index) = sources.map Index.ofCalls
  uniform : ∀ calls, some calls ∈ sources → ∃ variant, ∀ call ∈ calls, call.key.variant = variant

/-- A call has put the row under the key of the condition, or the index is empty. -/
def Query.Condition.Called (sources : List (Option (List (Insertion ScalarValue)))) (row : Nat)
    (condition : Query.Condition) : Prop :=
  ∃ source, sources[condition.indexId.toNat]? = some source ∧
    ∀ calls, source = some calls → ∃ call ∈ calls, call.key = condition.key ∧ row ∈ call.rows

namespace IndexFragment.FilledBy

variable {fragment : IndexFragment} {sources : List (Option (List (Insertion ScalarValue)))}

theorem length_eq (filled : fragment.FilledBy sources) : fragment.indexes.length = sources.length := by
  rw [← List.length_map (·.index), filled.indexes, List.length_map]

theorem admits_iff (filled : fragment.FilledBy sources) {condition : Query.Condition}
    (known : condition.indexId.toNat < sources.length) (row : Nat) :
    condition.Admits fragment row ↔ condition.Called sources row := by
  have inside : condition.indexId.toNat < fragment.indexes.length := filled.length_eq ▸ known
  have same : fragment.indexes[condition.indexId.toNat].index = Index.ofCalls sources[condition.indexId.toNat] := by
    have atId := congrArg (fun indexes => indexes[condition.indexId.toNat]?) filled.indexes
    simpa [inside, known] using atId
  have uniform := filled.uniform
  simp only [Query.Condition.Admits, Query.Condition.Called, List.getElem?_eq_getElem inside,
    List.getElem?_eq_getElem known, Option.some.injEq, exists_eq_left', same]
  cases source : sources[condition.indexId.toNat] with
  | none => simp [Index.ofCalls]
  | some calls =>
    obtain ⟨_, ofVariant⟩ := uniform calls (source ▸ List.getElem_mem known)
    simp only [Index.ofCalls, Index.bitmap.injEq, forall_eq', Option.some.injEq,
      BitmapIndexBuilder.get_build (.ofCalls ofVariant)]
    exact (BitmapIndexBuilder.answer_ofCalls calls condition.key).mem_getD row

end IndexFragment.FilledBy

/-- An archive answers every key by the calls that filled its builder: with `None`
    when no call has the key, else with all the rows of the calls that do, and for a
    join to one with the value of the last of them.  A filter selects, out of the rows
    of the fragment, those that calls have put under the key of every condition. -/
theorem archive_answers (roaring : Roaring) (ε : Type) :
    (∀ (calls : List (Insertion ScalarValue)) (variant : Nat), (∀ call ∈ calls, call.key.variant = variant) →
      ∀ key, ∃ answer, ArchivedBitmapIndex.get (ε := ε) roaring
        ((BitmapIndexBuilder.ofCalls calls).build.archive roaring) key = .ok answer ∧
          Insertion.Answer calls key answer) ∧
    (∀ (calls : List (Nat × Nat)) (key : Nat),
      ArchivedJoinToOneIndex.get (ε := ε) (JoinToOneIndexBuilder.ofCalls calls).build.archive key =
        .ok (((calls.filter fun call => call.1 = key).getLast?).map Prod.snd)) ∧
    (∀ (calls : List (Insertion Nat)) (key : Nat), ∃ answer, ArchivedJoinToManyIndex.get (ε := ε) roaring
      ((JoinToManyIndexBuilder.ofCalls calls).build.archive roaring) key = .ok answer ∧
        Insertion.Answer calls key answer) ∧
    (∀ (filter : Query.Filter) (fragment : IndexFragment) (sources : List (Option (List (Insertion ScalarValue)))),
      fragment.FilledBy sources → fragment.rangeStart + fragment.rangeLen < 2 ^ 32 →
      (∀ condition ∈ filter.conditions, condition.indexId.toNat < sources.length) →
      ∃ rows, filter.filterArchived roaring (fragment.archive roaring) = .ok rows ∧
        (∀ row, row ∈ rows ↔ (fragment.rangeStart ≤ row ∧ row < fragment.rangeStart + fragment.rangeLen) ∧
          ∀ condition ∈ filter.conditions, condition.Called sources row) ∧
        (∀ condition ∈ filter.conditions, ∀ calls, sources[condition.indexId.toNat]? = some (some calls) →
          (∀ call ∈ calls, call.key ≠ condition.key) → rows = ∅)) := by
  refine ⟨fun calls variant ofVariant key => ?_, fun calls key => ?_, fun calls key => ?_,
    fun filter fragment sources filled fits known => ?_⟩
  · rw [BitmapIndex.get_archive, BitmapIndexBuilder.get_build (.ofCalls ofVariant)]
    exact ⟨_, rfl, BitmapIndexBuilder.answer_ofCalls calls key⟩
  · rw [JoinToOneIndex.get_archive, JoinToOneIndexBuilder.build, JoinToOneIndex.get,
      BinarySearch.Table.get_ofMap fun _ _ => rfl, JoinToOneIndexBuilder.getElem?_ofCalls]
  · rw [JoinToManyIndex.get_archive, JoinToManyIndexBuilder.build, JoinToManyIndex.get,
      BinarySearch.Table.get_ofMap fun _ _ => rfl]
    exact ⟨_, rfl, JoinToManyIndexBuilder.answer_ofCalls calls key⟩
  · obtain ⟨rows, filtered, mem_rows⟩ := Query.Filter.narrow_admits
      (fun condition member => filled.length_eq ▸ known condition member)
      (Finset.Ico fragment.rangeStart (fragment.rangeStart + fragment.rangeLen))
    have called : ∀ row, row ∈ rows ↔
        (fragment.rangeStart ≤ row ∧ row < fragment.rangeStart + fragment.rangeLen) ∧
          ∀ condition ∈ filter.conditions, condition.Called sources row := by
      intro row
      rw [mem_rows, Finset.mem_Ico, and_congr_right_iff]
      intro _
      exact forall₂_congr fun condition member => filled.admits_iff (known condition member) row
    refine ⟨rows, by rw [Query.Filter.filter_archive roaring filter fits]; exact filtered, called, ?_⟩
    intro condition member calls source missing
    refine Finset.eq_empty_of_forall_notMem fun row selected => ?_
    obtain ⟨other, otherAt, put⟩ := ((called row).mp selected).2 condition member
    obtain ⟨call, isCall, same, _⟩ := put calls (Option.some.inj (otherAt.symm.trans source))
    exact missing call isCall same

theorem archive_answers_oneIndex :
    let calls : List (Insertion ScalarValue) :=
      [.insert (.uint8 3) 7, .insertRange (.uint8 4) ⟨.included 0, .excluded 9⟩]
    (∃ answer, ArchivedBitmapIndex.get (ε := Empty) Roaring.oneArray
      ((BitmapIndexBuilder.ofCalls calls).build.archive Roaring.oneArray) (.uint8 3) = .ok answer ∧
        Insertion.Answer calls (.uint8 3) answer) ∧
    ∃ rows, Query.Filter.filterArchived Roaring.oneArray ⟨0, 1, [⟨0, .uint8 3⟩, ⟨1, .null⟩], []⟩
      (IndexFragment.archive Roaring.oneArray ⟨1, 0, 10, [⟨0, Index.ofCalls (some calls)⟩, ⟨1, Index.ofCalls none⟩]⟩) =
        .ok rows ∧ 7 ∈ rows := by
  intro calls
  have ofVariant : ∀ call ∈ calls, call.key.variant = 3 := by
    simp [calls, Insertion.key, ScalarValue.variant]
  obtain ⟨bitmaps, _, _, filters⟩ := archive_answers Roaring.oneArray Empty
  refine ⟨bitmaps calls 3 ofVariant (.uint8 3), ?_⟩
  obtain ⟨rows, filtered, mem_rows, _⟩ := filters ⟨0, 1, [⟨0, .uint8 3⟩, ⟨1, .null⟩], []⟩
    ⟨1, 0, 10, [⟨0, Index.ofCalls (some calls)⟩, ⟨1, Index.ofCalls none⟩]⟩ [some calls, none]
    ⟨rfl, by
      intro other member
      simp only [List.mem_cons, Option.some.injEq, reduceCtorEq, List.not_mem_nil, or_false] at member
      exact ⟨3, member ▸ ofVariant⟩⟩ (by decide) (by simp)
  refine ⟨rows, filtered, (mem_rows 7).mpr ⟨by decide, ?_⟩⟩
  simp [Query.Condition.Called, calls, Insertion.key, Insertion.rows]

/-- A call with an empty range adds no row, and the key is there all the same. -/
theorem archive_emptyRange :
    let calls : List (Insertion ScalarValue) := [.insertRange .null ⟨.included 5, .excluded 5⟩]
    (∀ call ∈ calls, call.key.variant = 0 ∧ call.rows = ∅) ∧
    ArchivedBitmapIndex.get (ε := Empty) Roaring.oneArray
      ((BitmapIndexBuilder.ofCalls calls).build.archive Roaring.oneArray) .null = .ok (some ∅) := by
  intro calls
  have ofVariant : ∀ call ∈ calls, call.key.variant = 0 ∧ call.rows = ∅ := by
    simp [calls, Insertion.key, Insertion.rows, ScalarValue.variant, RowRange.rows, RowRange.first, RowRange.beyond]
  refine ⟨ofVariant, ?_⟩
  rw [BitmapIndex.get_archive, BitmapIndexBuilder.get_build (.ofCalls fun call member => (ofVariant call member).1)]
  simp [calls, BitmapIndexBuilder.ofCalls, BitmapIndexBuilder.apply, BitmapIndexBuilder.insertRange, RowRange.rows,
    RowRange.first, RowRange.beyond]

end Starkstream
