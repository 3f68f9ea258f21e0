import Starkstream.Compaction.Cluster

/-! # What compaction keeps

A service stores objects first and its watermark after them, and takes up its work
after a watermark that it read.  So the objects up to every watermark that was
ever stored are there, whatever the service had seen, and wherever it died.  The
prune service deletes up to a watermark of the groups, which is below one of the
segments.
-/

namespace Starkstream

open BlockStore

variable {cursor : Cursor}

namespace ObjectStore

variable {store : ObjectStore} {key : String} {object : StoredObject}

theorem getBlock_insert (other : formatBlockKey cursor ≠ key) :
    getBlock (store.insert key object) cursor = store.getBlock cursor := by
  rw [getBlock, getBlock, AList.lookup_insert_ne other]

variable {firstBlock : Nat}

theorem getSegment_insert {name} (other : formatSegmentKey firstBlock name ≠ key) :
    getSegment (store.insert key object) firstBlock name = store.getSegment firstBlock name := by
  rw [getSegment, getSegment, AList.lookup_insert_ne other]

theorem getGroup_insert (other : formatGroupKey firstBlock ≠ key) :
    getGroup (store.insert key object) firstBlock = store.getGroup firstBlock := by
  rw [getGroup, getGroup, AList.lookup_insert_ne other]

theorem getBlock_erase (other : formatBlockKey cursor ≠ key) :
    getBlock (store.erase key) cursor = store.getBlock cursor := by
  rw [getBlock, getBlock, AList.lookup_erase_ne other]

theorem getSegment_erase {name} (other : formatSegmentKey firstBlock name ≠ key) :
    getSegment (store.erase key) firstBlock name = store.getSegment firstBlock name := by
  rw [getSegment, getSegment, AList.lookup_erase_ne other]

theorem getGroup_erase (other : formatGroupKey firstBlock ≠ key) :
    getGroup (store.erase key) firstBlock = store.getGroup firstBlock := by
  rw [getGroup, getGroup, AList.lookup_erase_ne other]

theorem getBlock_putBlock_self (store : ObjectStore) (cursor : Cursor) (block : Block) :
    (store.putBlock cursor block).getBlock cursor = some block := by
  rw [getBlock, putBlock, AList.lookup_insert]

theorem getSegment_putSegment_self (store : ObjectStore) (firstBlock : Nat) (segment : SerializedSegment) :
    (store.putSegment firstBlock segment).getSegment firstBlock segment.name = some segment.data := by
  rw [getSegment, putSegment, AList.lookup_insert]

theorem getGroup_putGroup_self (store : ObjectStore) (firstBlock : Nat) (group : SegmentGroup) :
    (store.putGroup firstBlock group).getGroup firstBlock = some group := by
  rw [getGroup, putGroup, AList.lookup_insert]

theorem getBlock_putBlock {other block found} (isFound : (store.putBlock cursor block).getBlock other = some found) :
    store.getBlock other = some found ∨ found = block := by
  by_cases same : formatBlockKey other = formatBlockKey cursor
  · rw [getBlock, putBlock, same, AList.lookup_insert] at isFound
    exact .inr (Option.some.inj isFound).symm
  · rw [putBlock, getBlock_insert same] at isFound
    exact .inl isFound

end ObjectStore

namespace Archive

variable (archive : Archive) (start : Nat)

/-- The object of a segment that begins at `first` has the blocks of the segment. -/
def HasObject (first : Nat) (name : String) : Prop :=
  ∃ data, archive.store.getSegment first name = some data ∧
    data.cursors.map (·.number) = List.range' first archive.options.segmentSize

/-- The segment that begins at `first` is complete. -/
def SegmentAt (first : Nat) : Prop := ∀ name ∈ segmentNames archive.fragmentInfo, archive.HasObject first name

def GroupAt (first : Nat) : Prop := ∃ group, archive.store.getGroup first = some group

/-- Every segment before `stop` is complete. -/
def SegmentedTo (stop : Nat) : Prop := Tiled archive.SegmentAt start archive.options.segmentSize stop

def GroupedTo (stop : Nat) : Prop := Tiled archive.GroupAt start archive.options.blocksInGroup stop

/-- Block numbers that are written with ten digits. -/
def Short (cursor : Cursor) : Prop := cursor.number < 10 ^ 10

/-- `block` is the last block of a segment that is complete, as are all before it. -/
def SegmentEnd (block : Nat) : Prop :=
  ∃ first, block + 1 = first + archive.options.segmentSize ∧ archive.SegmentedTo start first ∧ archive.SegmentAt first

def GroupEnd (block : Nat) : Prop :=
  ∃ first, block + 1 = first + archive.options.blocksInGroup ∧ archive.GroupedTo start first ∧ archive.GroupAt first

/-- The objects up to the watermarks are there, and the blocks after the groups. -/
structure Sound : Prop where
  short : ∀ cursor ∈ archive.uploads, Short cursor
  kept : ∀ cursor ∈ archive.uploads, (∀ grouped ∈ archive.grouped.values, grouped < cursor.number) →
    ∃ block, archive.store.getBlock cursor = some block
  provided : ∀ cursor block, archive.store.getBlock cursor = some block → block.Provides archive.fragmentInfo
  segmented : ∀ block ∈ archive.segmented.values, archive.SegmentEnd start block
  grouped : ∀ block ∈ archive.grouped.values, archive.GroupEnd start block
  ordered : ∀ grouped ∈ archive.grouped.values, ∃ segmented ∈ archive.segmented.values, grouped < segmented

variable {archive start}

theorem Sound.fresh (options : CompactionServiceOptions) (fragmentInfo : List FragmentInfo) (start : Nat) :
    (Archive.fresh options fragmentInfo).Sound start :=
  ⟨nofun, nofun, fun _ _ found => (by cases found), nofun, nofun, nofun⟩

variable {block : Nat}

theorem SegmentEnd.segmentedTo (isEnd : archive.SegmentEnd start block) : archive.SegmentedTo start (block + 1) := by
  obtain ⟨_, last, tiled, complete⟩ := isEnd
  rw [last]
  exact tiled.extend complete

theorem GroupEnd.groupedTo (isEnd : archive.GroupEnd start block) : archive.GroupedTo start (block + 1) := by
  obtain ⟨_, last, tiled, complete⟩ := isEnd
  rw [last]
  exact tiled.extend complete

theorem SegmentEnd.aligned (isEnd : archive.SegmentEnd start block) :
    ∃ count, 0 < count ∧ block + 1 = start + count * archive.options.segmentSize := by
  obtain ⟨_, last, ⟨count, rfl, -⟩, -⟩ := isEnd
  exact ⟨count + 1, Nat.succ_pos _, by rw [last, Nat.add_mul, Nat.one_mul, Nat.add_assoc]⟩

theorem GroupEnd.aligned (isEnd : archive.GroupEnd start block) :
    ∃ count, 0 < count ∧ block + 1 = start + count * archive.options.blocksInGroup := by
  obtain ⟨_, last, ⟨count, rfl, -⟩, -⟩ := isEnd
  exact ⟨count + 1, Nat.succ_pos _, by rw [last, Nat.add_mul, Nat.one_mul, Nat.add_assoc]⟩

/-- Nothing that a service relies on is lost. -/
structure Grows (before after : Archive) : Prop where
  options : after.options = before.options
  fragmentInfo : after.fragmentInfo = before.fragmentInfo
  object : ∀ first name, before.HasObject first name → after.HasObject first name
  groupAt : ∀ first, before.GroupAt first → after.GroupAt first
  segmented : ∀ block ∈ before.segmented.values, block ∈ after.segmented.values
  grouped : ∀ block ∈ before.grouped.values, block ∈ after.grouped.values

namespace Grows

variable {before after : Archive} {start stop : Nat}

theorem refl (archive : Archive) : Grows archive archive :=
  ⟨rfl, rfl, fun _ _ => id, fun _ => id, fun _ => id, fun _ => id⟩

variable (grows : Grows before after)
include grows

theorem segmentAt {first} (complete : before.SegmentAt first) : after.SegmentAt first := by
  intro name isName
  rw [grows.fragmentInfo] at isName
  exact grows.object first name (complete name isName)

theorem segmentedTo (tiled : before.SegmentedTo start stop) : after.SegmentedTo start stop := by
  rw [SegmentedTo, grows.options]
  exact tiled.mono fun _ => grows.segmentAt

theorem groupedTo (tiled : before.GroupedTo start stop) : after.GroupedTo start stop := by
  rw [GroupedTo, grows.options]
  exact tiled.mono fun _ => grows.groupAt _

theorem segmentEnd {block} (isEnd : before.SegmentEnd start block) : after.SegmentEnd start block := by
  obtain ⟨first, last, tiled, complete⟩ := isEnd
  rw [← grows.options] at last
  exact ⟨first, last, grows.segmentedTo tiled, grows.segmentAt complete⟩

theorem groupEnd {block} (isEnd : before.GroupEnd start block) : after.GroupEnd start block := by
  obtain ⟨first, last, tiled, complete⟩ := isEnd
  rw [← grows.options] at last
  exact ⟨first, last, grows.groupedTo tiled, grows.groupAt first complete⟩

end Grows

/-! ## Operations -/

theorem upload_grows (archive : Archive) (cursor : Cursor) (block : Block) :
    Grows archive (archive.upload cursor block) where
  options := rfl
  fragmentInfo := rfl
  object first name := by
    rintro ⟨data, found, numbers⟩
    refine ⟨data, ?_, numbers⟩
    rw [← found]
    exact ObjectStore.getSegment_insert
      (ne_of_head? (head?_formatSegmentKey first name) (head?_formatBlockKey cursor) (by decide))
  groupAt first := by
    rintro ⟨group, found⟩
    refine ⟨group, ?_⟩
    rw [← found]
    exact ObjectStore.getGroup_insert
      (ne_of_head? (head?_formatGroupKey first) (head?_formatBlockKey cursor) (by decide))
  segmented _ := id
  grouped _ := id

theorem Sound.upload (sound : archive.Sound start) {block : Block} (short : Short cursor)
    (provides : block.Provides archive.fragmentInfo) : (archive.upload cursor block).Sound start where
  short other among := by
    rcases List.mem_append.mp among with old | new
    · exact sound.short other old
    · exact List.mem_singleton.mp new ▸ short
  kept other among above := by
    by_cases same : formatBlockKey other = formatBlockKey cursor
    · refine ⟨block, ?_⟩
      have found := ObjectStore.getBlock_putBlock_self archive.store cursor block
      rwa [ObjectStore.getBlock, ← same] at found
    · have old : other ∈ archive.uploads := by
        rcases List.mem_append.mp among with old | new
        · exact old
        · exact absurd (congrArg formatBlockKey (List.mem_singleton.mp new)) same
      obtain ⟨found, isFound⟩ := sound.kept other old above
      exact ⟨found, (ObjectStore.getBlock_insert same).trans isFound⟩
  provided other found isFound := by
    rcases ObjectStore.getBlock_putBlock isFound with old | rfl
    · exact sound.provided other found old
    · exact provides
  segmented last had := (archive.upload_grows cursor block).segmentEnd (sound.segmented last had)
  grouped last had := (archive.upload_grows cursor block).groupEnd (sound.grouped last had)
  ordered := sound.ordered

variable {segment : SerializedSegment}

theorem putSegment_grows {first : Cursor}
    (numbers : segment.data.cursors.map (·.number) = List.range' first.number archive.options.segmentSize) :
    Grows archive (archive.putSegment first segment) where
  options := rfl
  fragmentInfo := rfl
  object other name := by
    rintro ⟨data, found, isData⟩
    by_cases same : formatSegmentKey other name = formatSegmentKey first.number segment.name
    · obtain ⟨rfl, rfl⟩ := formatSegmentKey_inj same
      exact ⟨segment.data, ObjectStore.getSegment_putSegment_self _ _ _, numbers⟩
    · exact ⟨data, (ObjectStore.getSegment_insert same).trans found, isData⟩
  groupAt other := by
    rintro ⟨group, found⟩
    refine ⟨group, ?_⟩
    rw [← found]
    exact ObjectStore.getGroup_insert
      (ne_of_head? (head?_formatGroupKey other) (head?_formatSegmentKey first.number segment.name) (by decide))
  segmented _ := id
  grouped _ := id

theorem putSegment_hasObject {first : Cursor}
    (numbers : segment.data.cursors.map (·.number) = List.range' first.number archive.options.segmentSize) :
    (archive.putSegment first segment).HasObject first.number segment.name :=
  ⟨segment.data, ObjectStore.getSegment_putSegment_self _ _ _, numbers⟩

theorem putSegment_getBlock (archive : Archive) (first cursor : Cursor) (segment : SerializedSegment) :
    (archive.putSegment first segment).store.getBlock cursor = archive.store.getBlock cursor :=
  ObjectStore.getBlock_insert
    (ne_of_head? (head?_formatBlockKey cursor) (head?_formatSegmentKey first.number segment.name) (by decide))

theorem Sound.putSegment (sound : archive.Sound start) {first : Cursor}
    (numbers : segment.data.cursors.map (·.number) = List.range' first.number archive.options.segmentSize) :
    (archive.putSegment first segment).Sound start where
  short := sound.short
  kept cursor among above := by
    rw [putSegment_getBlock]
    exact sound.kept cursor among above
  provided cursor block found := by
    rw [putSegment_getBlock] at found
    exact sound.provided cursor block found
  segmented last had := (putSegment_grows numbers).segmentEnd (sound.segmented last had)
  grouped last had := (putSegment_grows numbers).groupEnd (sound.grouped last had)
  ordered := sound.ordered

theorem putSegmented_grows (archive : Archive) (block : Nat) : Grows archive (archive.putSegmented block) :=
  ⟨rfl, rfl, fun _ _ => id, fun _ => id, fun _ => HighWater.subset_putIfHigher, fun _ => id⟩

theorem Sound.putSegmented (sound : archive.Sound start) (isEnd : archive.SegmentEnd start block) :
    (archive.putSegmented block).Sound start where
  short := sound.short
  kept := sound.kept
  provided := sound.provided
  segmented last had := by
    rcases HighWater.mem_putIfHigher had with old | rfl
    · exact sound.segmented last old
    · exact isEnd
  grouped := sound.grouped
  ordered grouped had := by
    obtain ⟨segmented, isSegmented, below⟩ := sound.ordered grouped had
    exact ⟨segmented, HighWater.subset_putIfHigher isSegmented, below⟩

theorem putGroup_grows (archive : Archive) (first : Cursor) (group : SegmentGroup) :
    Grows archive (archive.putGroup first group) where
  options := rfl
  fragmentInfo := rfl
  object other name := by
    rintro ⟨data, found, numbers⟩
    refine ⟨data, ?_, numbers⟩
    rw [← found]
    exact ObjectStore.getSegment_insert
      (ne_of_head? (head?_formatSegmentKey other name) (head?_formatGroupKey first.number) (by decide))
  groupAt other := by
    rintro ⟨old, found⟩
    by_cases same : formatGroupKey other = formatGroupKey first.number
    · obtain rfl := formatGroupKey_inj same
      exact ⟨group, ObjectStore.getGroup_putGroup_self _ _ _⟩
    · exact ⟨old, (ObjectStore.getGroup_insert same).trans found⟩
  segmented _ := id
  grouped _ := id

theorem putGroup_getBlock (archive : Archive) (first cursor : Cursor) (group : SegmentGroup) :
    (archive.putGroup first group).store.getBlock cursor = archive.store.getBlock cursor :=
  ObjectStore.getBlock_insert
    (ne_of_head? (head?_formatBlockKey cursor) (head?_formatGroupKey first.number) (by decide))

theorem Sound.putGroup (sound : archive.Sound start) (first : Cursor) (group : SegmentGroup) :
    (archive.putGroup first group).Sound start where
  short := sound.short
  kept cursor among above := by
    rw [putGroup_getBlock]
    exact sound.kept cursor among above
  provided cursor block found := by
    rw [putGroup_getBlock] at found
    exact sound.provided cursor block found
  segmented last had := (archive.putGroup_grows first group).segmentEnd (sound.segmented last had)
  grouped last had := (archive.putGroup_grows first group).groupEnd (sound.grouped last had)
  ordered := sound.ordered

theorem putGrouped_grows (archive : Archive) (block : Nat) : Grows archive (archive.putGrouped block) :=
  ⟨rfl, rfl, fun _ _ => id, fun _ => id, fun _ => id, fun _ => HighWater.subset_putIfHigher⟩

theorem Sound.putGrouped (sound : archive.Sound start) (isEnd : archive.GroupEnd start block)
    (below : ∃ segmented ∈ archive.segmented.values, block < segmented) : (archive.putGrouped block).Sound start where
  short := sound.short
  kept cursor among above :=
    sound.kept cursor among fun grouped had => above grouped (HighWater.subset_putIfHigher had)
  provided := sound.provided
  segmented := sound.segmented
  grouped last had := by
    rcases HighWater.mem_putIfHigher had with old | rfl
    · exact sound.grouped last old
    · exact isEnd
  ordered grouped had := by
    rcases HighWater.mem_putIfHigher had with old | rfl
    · exact sound.ordered grouped old
    · exact below

theorem delete_grows {number key} (listed : isListed number key = true) : Grows archive (archive.delete key) where
  options := rfl
  fragmentInfo := rfl
  object first name := by
    rintro ⟨data, found, numbers⟩
    refine ⟨data, ?_, numbers⟩
    rw [← found]
    exact ObjectStore.getSegment_erase
      (ne_of_head? (head?_formatSegmentKey first name) (head?_of_isListed listed) (by decide))
  groupAt first := by
    rintro ⟨group, found⟩
    refine ⟨group, ?_⟩
    rw [← found]
    exact ObjectStore.getGroup_erase (ne_of_head? (head?_formatGroupKey first) (head?_of_isListed listed) (by decide))
  segmented _ := id
  grouped _ := id

/-- The objects that are listed for a number of a group are blocks of the group. -/
theorem Sound.delete (sound : archive.Sound start) {number key} (listed : isListed number key = true)
    (inGroup : ∃ grouped ∈ archive.grouped.values, number ≤ grouped) : (archive.delete key).Sound start where
  short := sound.short
  kept cursor among above := by
    have other : formatBlockKey cursor ≠ key := by
      rintro rfl
      obtain ⟨grouped, had, bound⟩ := inGroup
      rw [number_of_isListed (sound.short cursor among) listed] at bound
      exact absurd (above grouped had) (not_lt.mpr bound)
    obtain ⟨block, found⟩ := sound.kept cursor among above
    exact ⟨block, (ObjectStore.getBlock_erase other).trans found⟩
  provided cursor block found := by
    by_cases same : formatBlockKey cursor = key
    · rw [Archive.delete, ObjectStore.getBlock, same, AList.lookup_erase] at found
      cases found
    · exact sound.provided cursor block ((ObjectStore.getBlock_erase same).symm.trans found)
  segmented last had := (delete_grows listed).segmentEnd (sound.segmented last had)
  grouped last had := (delete_grows listed).groupEnd (sound.grouped last had)
  ordered := sound.ordered

end Archive

end Starkstream
