import Starkstream.Compaction.SegmentBuilder

/-! # Building segment groups

A group has one index for several segments.  It has the keys of the indexes of
all their blocks, and for each key the numbers of the blocks whose index has it:
which rows of the block have the key is not kept.
-/

namespace Starkstream

/-- A group of segments. -/
structure SegmentGroup where
  firstBlock : Cursor
  index : IndexGroupFragment

def Index.keys : Index → List ScalarValue
  | .bitmap index => index.keys
  | .empty => []

abbrev FragmentIndexes := Std.ExtTreeMap IndexId BitmapIndexBuilder

abbrev BlockIndexes := Std.ExtTreeMap FragmentId FragmentIndexes

structure SegmentGroupBuilder where
  segmentSize : Nat
  segmentCount : Nat := 0
  blockRange : Option (Cursor × Nat) := none
  blockIndexes : BlockIndexes := ∅

namespace SegmentGroupBuilder

def insertKeys (blockNumber : Nat) (builder : BitmapIndexBuilder) (keys : List ScalarValue) : BitmapIndexBuilder :=
  keys.foldl (fun builder key => BitmapIndexBuilder.insert builder key blockNumber) builder

def addIndex (blockNumber : Nat) (indexes : FragmentIndexes) (index : FragmentIndex) : FragmentIndexes :=
  indexes.alter index.indexId fun existing => some (insertKeys blockNumber (existing.getD ∅) index.index.keys)

def addIndexFragment (blockNumber : Nat) (blockIndexes : BlockIndexes) (fragment : IndexFragment) : BlockIndexes :=
  blockIndexes.alter fragment.fragmentId fun existing =>
    some (fragment.indexes.foldl (addIndex blockNumber) (existing.getD ∅))

def addBlock (blockIndexes : BlockIndexes) (block : FragmentData IndexGroupFragment) : BlockIndexes :=
  block.data.indexes.foldl (addIndexFragment (asU32 block.cursor.number)) blockIndexes

/-- Add the indexes of a segment; this never fails. -/
def addSegment (builder : SegmentGroupBuilder) (segment : Segment IndexGroupFragment) : SegmentGroupBuilder :=
  let segmentEnd := segment.firstBlock.number + builder.segmentSize - 1
  { segmentSize := builder.segmentSize
    segmentCount := builder.segmentCount + 1
    blockRange :=
      match builder.blockRange with
      | none => some (segment.firstBlock, segmentEnd)
      | some (firstBlock, _) => some (firstBlock, segmentEnd)
    blockIndexes := segment.data.foldl addBlock builder.blockIndexes }

def fragmentIndex (rangeStart rangeLen : Nat) (entry : FragmentId × FragmentIndexes) : IndexFragment where
  fragmentId := entry.1
  rangeStart := rangeStart
  rangeLen := rangeLen
  indexes := entry.2.toList.map fun index => ⟨index.1, .bitmap (BitmapIndexBuilder.build index.2)⟩

/-- The map gives the fragments by ascending id, so that sorting them changes nothing. -/
def build (builder : SegmentGroupBuilder) : Outcome CompactionError SegmentGroup :=
  match builder.blockRange with
  | none => Outcome.fail ⟨⟩ ["segment group builder has no segments"]
  | some (firstBlock, lastBlock) =>
    let rangeStart := asU32 firstBlock.number
    let rangeLen := asU32 (lastBlock - firstBlock.number + 1)
    .ok ⟨firstBlock, ⟨builder.blockIndexes.toList.map (fragmentIndex rangeStart rangeLen)⟩⟩

/-- Add the segments in order and build the group. -/
def group (segmentSize : Nat) (segments : List (Segment IndexGroupFragment)) : Outcome CompactionError SegmentGroup :=
  (segments.foldl addSegment { segmentSize }).build

end SegmentGroupBuilder

namespace BitmapIndexBuilder

theorem mem_insert {builder key other value} :
    other ∈ BitmapIndexBuilder.insert builder key value ↔ other ∈ builder ∨ key = other := by
  by_cases same : key = other
  · simp [BitmapIndexBuilder.insert, same]
  · simp [BitmapIndexBuilder.insert, Std.ExtTreeMap.mem_alter, same]

end BitmapIndexBuilder

namespace SegmentGroupBuilder

variable {key : ScalarValue}

theorem mem_insertKeys {blockNumber builder keys} :
    key ∈ insertKeys blockNumber builder keys ↔ key ∈ builder ∨ key ∈ keys := by
  induction keys generalizing builder with
  | nil => simp [insertKeys]
  | cons first rest ih =>
    rw [insertKeys, List.foldl_cons, ← insertKeys, ih, BitmapIndexBuilder.mem_insert, List.mem_cons, or_assoc,
      eq_comm]

theorem mem_rows_insertKeys {blockNumber row builder keys} :
    row ∈ BitmapIndexBuilder.rows (insertKeys blockNumber builder keys) key ↔
      row ∈ BitmapIndexBuilder.rows builder key ∨ (key ∈ keys ∧ row = blockNumber) := by
  induction keys generalizing builder with
  | nil => simp [insertKeys]
  | cons first rest ih =>
    rw [insertKeys, List.foldl_cons, ← insertKeys, ih, BitmapIndexBuilder.mem_rows_insert, List.mem_cons, or_assoc,
      or_and_right, eq_comm (a := first)]

/-- The index fragments of blocks, each with the number the builder keeps for its block. -/
def fragmentItems (blocks : List (FragmentData IndexGroupFragment)) : List (Nat × IndexFragment) :=
  blocks.flatMap fun block => block.data.indexes.map (asU32 block.cursor.number, ·)

/-- The indexes of one fragment, each with the number of its block. -/
def indexItems (fragmentId : FragmentId) (blocks : List (FragmentData IndexGroupFragment)) :
    List (Nat × FragmentIndex) :=
  ((fragmentItems blocks).filter (·.2.fragmentId = fragmentId)).flatMap fun item => item.2.indexes.map (item.1, ·)

def addIndexes (items : List (Nat × FragmentIndex)) : FragmentIndexes :=
  items.foldl (fun indexes item => addIndex item.1 indexes item.2) ∅

/-- The index that several indexes of blocks make up. -/
def collect (items : List (Nat × FragmentIndex)) : BitmapIndexBuilder :=
  items.foldl (fun builder item => insertKeys item.1 builder item.2.index.keys) ∅

variable {blocks : List (FragmentData IndexGroupFragment)}

theorem mem_fragmentItems {item} :
    item ∈ fragmentItems blocks ↔
      ∃ block ∈ blocks, item.2 ∈ block.data.indexes ∧ item.1 = asU32 block.cursor.number := by
  simp only [fragmentItems, List.mem_flatMap, List.mem_map]
  constructor
  · rintro ⟨block, member, _, inBlock, rfl⟩
    exact ⟨block, member, inBlock, rfl⟩
  · rintro ⟨block, member, inBlock, number⟩
    exact ⟨block, member, item.2, inBlock, Prod.ext number.symm rfl⟩

theorem mem_indexItems {fragmentId item} : item ∈ indexItems fragmentId blocks ↔
      ∃ block ∈ blocks, ∃ fragment ∈ block.data.indexes, fragment.fragmentId = fragmentId ∧
        item.2 ∈ fragment.indexes ∧ item.1 = asU32 block.cursor.number := by
  simp only [indexItems, List.mem_flatMap, List.mem_filter, mem_fragmentItems, decide_eq_true_eq, List.mem_map]
  constructor
  · rintro ⟨⟨number, fragment⟩, ⟨⟨block, member, inBlock, rfl⟩, same⟩, _, inFragment, rfl⟩
    exact ⟨block, member, fragment, inBlock, same, inFragment, rfl⟩
  · rintro ⟨block, member, fragment, inBlock, same, inFragment, number⟩
    exact ⟨(_, fragment), ⟨⟨block, member, inBlock, rfl⟩, same⟩, item.2, inFragment, Prod.ext number.symm rfl⟩

variable {items : List (Nat × FragmentIndex)}

theorem mem_collect : key ∈ collect items ↔ ∃ item ∈ items, key ∈ item.2.index.keys := by
  have started : ∀ builder : BitmapIndexBuilder,
      key ∈ items.foldl (fun builder item => insertKeys item.1 builder item.2.index.keys) builder ↔
        key ∈ builder ∨ ∃ item ∈ items, key ∈ item.2.index.keys := by
    induction items with
    | nil => simp
    | cons item rest ih =>
      intro builder
      rw [List.foldl_cons, ih, mem_insertKeys, List.exists_mem_cons_iff, or_assoc]
  rw [collect, started]
  simp

theorem mem_rows_collect {row} :
    row ∈ BitmapIndexBuilder.rows (collect items) key ↔ ∃ item ∈ items, key ∈ item.2.index.keys ∧ row = item.1 := by
  have started : ∀ builder : BitmapIndexBuilder,
      row ∈ BitmapIndexBuilder.rows
          (items.foldl (fun builder item => insertKeys item.1 builder item.2.index.keys) builder) key ↔
        row ∈ BitmapIndexBuilder.rows builder key ∨ ∃ item ∈ items, key ∈ item.2.index.keys ∧ row = item.1 := by
    induction items with
    | nil => simp
    | cons item rest ih =>
      intro builder
      rw [List.foldl_cons, ih, mem_rows_insertKeys, List.exists_mem_cons_iff, or_assoc]
  rw [collect, started]
  simp [BitmapIndexBuilder.rows]

theorem getElem?_addIndexes (items : List (Nat × FragmentIndex)) (indexId : IndexId) :
    (addIndexes items)[indexId]? =
      if items.filter (·.2.indexId = indexId) = [] then none
      else some (collect (items.filter (·.2.indexId = indexId))) := by
  rw [collect, ← Grouping.foldl_some, addIndexes]
  exact (Grouping.getElem?_foldl_alter (fun item : Nat × FragmentIndex => item.2.indexId)
    (fun existing item => insertKeys item.1 (existing.getD ∅) item.2.index.keys) items ∅ indexId).trans (by simp)

theorem mem_addIndexes {indexId} : indexId ∈ addIndexes items ↔ ∃ item ∈ items, item.2.indexId = indexId := by
  rw [Std.ExtTreeMap.mem_iff_isSome_getElem?, getElem?_addIndexes]
  by_cases missing : items.filter (·.2.indexId = indexId) = []
  · rw [if_pos missing]
    simpa using missing
  · rw [if_neg missing]
    simpa using missing

theorem foldl_addBlock (blocks : List (FragmentData IndexGroupFragment)) (blockIndexes : BlockIndexes) :
    blocks.foldl addBlock blockIndexes =
      (fragmentItems blocks).foldl (fun indexes item => addIndexFragment item.1 indexes item.2) blockIndexes := by
  simp only [fragmentItems, List.foldl_flatMap, List.foldl_map]
  rfl

/-- Under every fragment id there are the indexes of the fragment in all blocks. -/
theorem getElem?_foldl_addBlock (blocks : List (FragmentData IndexGroupFragment)) (fragmentId : FragmentId) :
    (blocks.foldl addBlock ∅)[fragmentId]? =
      if (fragmentItems blocks).filter (·.2.fragmentId = fragmentId) = [] then none
      else some (addIndexes (indexItems fragmentId blocks)) := by
  have flat : addIndexes (indexItems fragmentId blocks) =
      ((fragmentItems blocks).filter (·.2.fragmentId = fragmentId)).foldl
        (fun indexes item => item.2.indexes.foldl (addIndex item.1) indexes) ∅ := by
    simp only [addIndexes, indexItems, List.foldl_flatMap, List.foldl_map]
  rw [flat, ← Grouping.foldl_some, foldl_addBlock]
  exact (Grouping.getElem?_foldl_alter (fun item : Nat × IndexFragment => item.2.fragmentId)
    (fun existing item => item.2.indexes.foldl (addIndex item.1) (existing.getD ∅)) (fragmentItems blocks) ∅
    fragmentId).trans (by simp)

section
variable (segments : List (Segment IndexGroupFragment)) (builder : SegmentGroupBuilder)
include segments builder

theorem blockIndexes_foldl :
    (segments.foldl addSegment builder).blockIndexes =
      (segments.flatMap (·.data)).foldl addBlock builder.blockIndexes := by
  induction segments generalizing builder with
  | nil => rfl
  | cons segment rest ih =>
    rw [List.foldl_cons, ih, List.flatMap_cons, List.foldl_append]
    rfl

theorem segmentSize_foldl : (segments.foldl addSegment builder).segmentSize = builder.segmentSize := by
  induction segments generalizing builder with
  | nil => rfl
  | cons segment rest ih => exact ih (builder.addSegment segment)

end

theorem blockRange_foldl (segmentSize : Nat) (segments : List (Segment IndexGroupFragment)) :
    (segments.foldl addSegment { segmentSize }).blockRange =
      segments.head?.bind fun head => segments.getLast?.map fun last =>
        (head.firstBlock, last.firstBlock.number + segmentSize - 1) := by
  induction segments using List.reverseRecOn with
  | nil => rfl
  | append_singleton init last ih =>
    rw [List.foldl_append, List.foldl_cons, List.foldl_nil, addSegment, ih, segmentSize_foldl]
    cases init with
    | nil => rfl
    | cons head rest =>
      have isFinal := List.getLast?_eq_some_getLast (List.cons_ne_nil head rest)
      rw [isFinal, List.getLast?_concat]
      rfl

/-- The segments of a group follow one another, and each has the blocks of its range. -/
structure Layout (segments : List (Segment IndexGroupFragment)) (first segmentSize groupSize : Nat) : Prop where
  size : segments.length = groupSize
  placed : ∀ (position : Nat) segment, segments[position]? = some segment →
    segment.firstBlock.number = first + position * segmentSize ∧
      segment.data.map (·.cursor.number) = List.range' (first + position * segmentSize) segmentSize

/-- The blocks have indexes for the same fragments, all of them are bitmap indexes,
    and the ids of indexes are their positions. -/
structure Regular (blocks : List (FragmentData IndexGroupFragment)) : Prop where
  sameFragments : ∀ left ∈ blocks, ∀ right ∈ blocks, ∀ fragment ∈ left.data.indexes,
    ∃ other ∈ right.data.indexes, other.fragmentId = fragment.fragmentId
  bitmaps : ∀ block ∈ blocks, ∀ fragment ∈ block.data.indexes, ∀ index ∈ fragment.indexes,
    ∃ builder, index.index = .bitmap (BitmapIndexBuilder.build builder)
  positions : ∀ block ∈ blocks, ∀ fragment ∈ block.data.indexes, ∀ (position : Nat) index,
    fragment.indexes[position]? = some index → index.indexId.toNat = position

/-- The keys of an index are of one variant, over all blocks. -/
def OneVariant (blocks : List (FragmentData IndexGroupFragment)) : Prop :=
  ∀ fragmentId indexId, ∃ variant, ∀ item ∈ indexItems fragmentId blocks, item.2.indexId = indexId →
    ∀ key ∈ item.2.index.keys, key.variant = variant

section
variable {fragmentId : FragmentId}

/-- The indexes of a fragment have the first ids, as they have in every block. -/
theorem Regular.dense (regular : Regular blocks) {indexId}
    (member : indexId ∈ addIndexes (indexItems fragmentId blocks)) {lower} (below : lower < indexId.toNat) :
    ∃ other ∈ addIndexes (indexItems fragmentId blocks), other.toNat = lower := by
  obtain ⟨_, isItem, rfl⟩ := mem_addIndexes.mp member
  obtain ⟨block, inBlocks, fragment, inBlock, same, inFragment, _⟩ := mem_indexItems.mp isItem
  obtain ⟨position, indexAt⟩ := List.getElem?_of_mem inFragment
  have samePosition := regular.positions block inBlocks fragment inBlock position _ indexAt
  have inside := (List.getElem?_eq_some_iff.mp indexAt).1
  obtain ⟨other, otherAt⟩ : ∃ other, fragment.indexes[lower]? = some other :=
    ⟨_, List.getElem?_eq_getElem (by omega)⟩
  refine ⟨other.indexId, mem_addIndexes.mpr ⟨(asU32 block.cursor.number, other), ?_, rfl⟩, ?_⟩
  · exact mem_indexItems.mpr ⟨block, inBlocks, fragment, inBlock, same, List.mem_of_getElem? otherAt, rfl⟩
  · exact regular.positions block inBlocks fragment inBlock lower other otherAt

theorem Regular.getElem?_fragmentIndex (regular : Regular blocks) (rangeStart rangeLen : Nat) (indexId : IndexId) :
    (fragmentIndex rangeStart rangeLen (fragmentId, addIndexes (indexItems fragmentId blocks))).indexes[indexId.toNat]? =
      (addIndexes (indexItems fragmentId blocks))[indexId]?.map fun builder =>
        ⟨indexId, .bitmap (BitmapIndexBuilder.build builder)⟩ := by
  have increasing : ∀ left right : IndexId, compare left right = .lt → left.toNat < right.toNat :=
    fun left right less => UInt8.lt_iff_toNat_lt.mp (Std.compare_eq_lt.mp less)
  have dense : ∀ key ∈ addIndexes (indexItems fragmentId blocks), ∀ lower < key.toNat,
      ∃ other ∈ addIndexes (indexItems fragmentId blocks), other.toNat = lower :=
    fun key member lower below => regular.dense member below
  have listed := Grouping.toList_getElem? (fun _ _ => UInt8.toNat_inj.mp) increasing dense indexId
  rw [fragmentIndex, List.getElem?_map, listed, Option.map_map]
  rfl

/-- What the indexes of one fragment find is found by those of another, with the given row. -/
def Covers (covering fragment : IndexFragment) (row : Nat) : Prop :=
  ∀ (position : Nat) index, fragment.indexes[position]? = some index →
    ∃ bitmap other, index.index = .bitmap bitmap ∧
      covering.indexes[position]? = some ⟨index.indexId, .bitmap other⟩ ∧
      ∀ key rows, bitmap.get key = some rows → ∃ otherRows, other.get key = some otherRows ∧ row ∈ otherRows

/-- A key that the index of a block has, the index of the group has as well, with the number of the block. -/
theorem Regular.covers (regular : Regular blocks) (oneVariant : OneVariant blocks) (rangeStart rangeLen : Nat) {block}
    (inBlocks : block ∈ blocks) {fragment} (inBlock : fragment ∈ block.data.indexes)
    (same : fragment.fragmentId = fragmentId) :
    Covers (fragmentIndex rangeStart rangeLen (fragmentId, addIndexes (indexItems fragmentId blocks))) fragment
      (asU32 block.cursor.number) := by
  intro position index indexAt
  have inFragment := List.mem_of_getElem? indexAt
  obtain ⟨_, isBitmap⟩ := regular.bitmaps block inBlocks fragment inBlock index inFragment
  have isItem : (asU32 block.cursor.number, index) ∈
      (indexItems fragmentId blocks).filter (·.2.indexId = index.indexId) :=
    List.mem_filter.mpr ⟨mem_indexItems.mpr ⟨block, inBlocks, fragment, inBlock, same, inFragment, rfl⟩, by simp⟩
  refine ⟨_, BitmapIndexBuilder.build (collect ((indexItems fragmentId blocks).filter (·.2.indexId = index.indexId))),
    isBitmap, ?_, fun key rows found => ?_⟩
  · rw [← regular.positions block inBlocks fragment inBlock position index indexAt, regular.getElem?_fragmentIndex,
      getElem?_addIndexes, if_neg (List.ne_nil_of_mem isItem)]
    rfl
  · obtain ⟨variant, ofVariant⟩ := oneVariant fragmentId index.indexId
    have uniform : BitmapIndexBuilder.Uniform
        (collect ((indexItems fragmentId blocks).filter (·.2.indexId = index.indexId))) variant := by
      intro other member
      obtain ⟨item, filtered, hasKey⟩ := mem_collect.mp member
      obtain ⟨listed, sameIndex⟩ := List.mem_filter.mp filtered
      exact ofVariant item listed (by simpa using sameIndex) other hasKey
    have hasKey : key ∈ index.index.keys := by
      rw [isBitmap]
      exact BitmapIndex.mem_keys_of_get found
    have inRows := mem_rows_collect.mpr ⟨_, isItem, hasKey, rfl⟩
    rw [BitmapIndexBuilder.get_build uniform]
    cases stored : (collect ((indexItems fragmentId blocks).filter (·.2.indexId = index.indexId)))[key]? with
    | none => simp [BitmapIndexBuilder.rows, stored] at inRows
    | some groupRows =>
      refine ⟨groupRows, rfl, ?_⟩
      simpa [BitmapIndexBuilder.rows, stored] using inRows

theorem find?_group {segments first segmentSize groupSize} (layout : Layout segments first segmentSize groupSize)
    (positive : 1 ≤ segmentSize) {built} (isBuilt : group segmentSize segments = .ok built) (fragmentId : FragmentId) :
    built.index.indexes.find? (·.fragmentId == fragmentId) =
      ((segments.flatMap (·.data)).foldl addBlock ∅)[fragmentId]?.map fun indexes =>
        fragmentIndex (asU32 first) (asU32 (groupSize * segmentSize)) (fragmentId, indexes) := by
  rw [group, build, blockRange_foldl] at isBuilt
  rw [List.head?_eq_getElem?, List.getLast?_eq_getElem?] at isBuilt
  cases isHead : segments[0]? with
  | none => simp [isHead, Outcome.fail] at isBuilt
  | some head =>
    cases isLast : segments[segments.length - 1]? with
    | none => simp [isHead, isLast, Outcome.fail] at isBuilt
    | some last =>
      obtain ⟨nonempty, _⟩ := List.getElem?_eq_some_iff.mp isHead
      have headNumber : head.firstBlock.number = first := by simpa using (layout.placed 0 head isHead).1
      have lastNumber := (layout.placed _ last isLast).1
      have size : last.firstBlock.number + segmentSize - 1 - first + 1 = groupSize * segmentSize := by
        have total : groupSize * segmentSize = (segments.length - 1) * segmentSize + segmentSize := by
          rw [← layout.size, ← Nat.succ_mul, Nat.succ_eq_add_one, Nat.sub_add_cancel nonempty]
        omega
      simp only [isHead, isLast, Option.bind_some, Option.map_some] at isBuilt
      cases isBuilt
      have listed := Grouping.find?_toList ((segments.flatMap (·.data)).foldl addBlock ∅) fragmentId
      have byId : (fun fragment : IndexFragment => fragment.fragmentId == fragmentId) ∘
          fragmentIndex (asU32 first) (asU32 (groupSize * segmentSize)) =
          fun entry => entry.1 == fragmentId := rfl
      simp only [blockIndexes_foldl, headNumber, size, List.find?_map, byId, listed, Option.map_map]
      rfl

end

end SegmentGroupBuilder

end Starkstream
