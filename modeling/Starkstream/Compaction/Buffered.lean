import Starkstream.ChainView.Validation
import Starkstream.Compaction.Cluster
import Starkstream.Ingestion.StateClient
import Starkstream.Lib.Window

/-! # The download queues of compaction

Both services keep a bounded queue of downloads and give the results to a builder
in the order in which the downloads were started.  Here are the two functions with
their queues.  If no call fails they do what a loop without a queue does, which is
what the stages of the services do one operation at a time.

The segment service asks the chain view for the block after the one it has just put
into the queue, also after the last block of the segment: it needs one block more
than it compacts.
-/

namespace Starkstream

structure BlockStoreError where
  deriving DecidableEq

/-- The calls of the services to the object store and to etcd; each of them can fail. -/
structure CompactionCalls where
  getBlock : Cursor → Outcome BlockStoreError Block
  getIndexSegment : Cursor → Outcome BlockStoreError (Segment IndexGroupFragment)
  putSegment : Archive → Cursor → SerializedSegment → Outcome BlockStoreError Archive
  putSegmented : Archive → Nat → Outcome IngestionStateClientError Archive
  putGroup : Archive → Cursor → SegmentGroup → Outcome BlockStoreError Archive
  putGrouped : Archive → Nat → Outcome IngestionStateClientError Archive

namespace CompactionCalls

variable (calls : CompactionCalls)

def getBlockAndCursor (cursor : Cursor) : Outcome BlockStoreError (Cursor × Block) := do
  let block ← calls.getBlock cursor
  return (cursor, block)

def getIndexSegmentAndCursor (firstCursor : Cursor) :
    Outcome BlockStoreError (Cursor × Segment IndexGroupFragment) := do
  let segment ← calls.getIndexSegment firstCursor
  return (firstCursor, segment)

/-- Every upload succeeds, and every write to etcd. -/
structure Writes : Prop where
  segment : ∀ archive first segment, calls.putSegment archive first segment = .ok (archive.putSegment first segment)
  segmented : ∀ archive block, calls.putSegmented archive block = .ok (archive.putSegmented block)
  group : ∀ archive first group, calls.putGroup archive first group = .ok (archive.putGroup first group)
  grouped : ∀ archive block, calls.putGrouped archive block = .ok (archive.putGrouped block)

end CompactionCalls

def maxBufferedBlocks : Nat := 128

def maxBufferedSegments : Nat := 128

/-! ## Segments -/

namespace SegmentService

variable (calls : CompactionCalls) (view : ChainView) (archive : Archive) (firstBlockInSegment : Cursor)

/-- The block to download after `current`. -/
def nextBlock (current : Cursor) : Outcome CompactionError Cursor := do
  match ← Outcome.changeContext {} [] (view.canonical.getNextCursor (some current)) with
  | .continue nextCursor _ => return nextCursor
  | _ => Outcome.fail {} ["chain view returned invalid next cursor", "cursor: " ++ current.display]

/-- Wait for a download and add the block, which is then the last block in the segment. -/
def addBlock (current : Cursor) (builder : SegmentBuilder) (download : Cursor) :
    Outcome CompactionError (SegmentBuilder × Cursor) := do
  let (blockCursor, blockData) ← Outcome.changeContext {} ["failed to get block"] (calls.getBlockAndCursor download)
  let builder ← Outcome.changeContext {} ["failed to add block to segment", "cursor: " ++ current.display]
    (builder.addBlock blockCursor blockData)
  return (builder, blockCursor)

/-- The same when all downloads were started: now the number of the block is checked. -/
def addCheckedBlock (current : Cursor) (builder : SegmentBuilder) (lastBlockInSegment download : Cursor) :
    Outcome CompactionError (SegmentBuilder × Cursor) := do
  let (builder, blockCursor) ← addBlock calls current builder download
  if blockCursor ≠ firstBlockInSegment ∧ blockCursor.number ≠ lastBlockInSegment.number + 1 then
    Outcome.fail {} ["block cursor number does not match expected number",
      "cursor: " ++ blockCursor.display ++ ", last_block: " ++ lastBlockInSegment.display]
  else return (builder, blockCursor)

/-- The three loops, with the builder and the last block in the segment.  A future in
    the queue is the cursor that it downloads. -/
def blockQueue : Window.Loop (Fault CompactionError) Cursor Cursor (SegmentBuilder × Cursor) where
  job current := current
  advance := nextBlock view
  slide current added download := addBlock calls current added.1 download
  drain current added download := addCheckedBlock calls firstBlockInSegment current added.1 added.2 download
  full := .panic
  empty := .error ⟨{}, ["compaction segment buffer is empty"]⟩

/-- The builder and the last block in the segment, after all blocks were added. -/
def addBlocks : Outcome CompactionError (SegmentBuilder × Cursor) := do
  let builder ← Outcome.changeContext {} [] (SegmentBuilder.startNewSegment {} firstBlockInSegment)
  let buffer ← (blockQueue calls view firstBlockInSegment).run archive.options.segmentSize
    (min archive.options.segmentSize maxBufferedBlocks) firstBlockInSegment (builder, firstBlockInSegment)
  return buffer.sink

def compactSegment : Outcome CompactionError Archive := do
  let (builder, lastBlockInSegment) ← addBlocks calls view archive firstBlockInSegment
  if builder.blockCount ≠ archive.options.segmentSize then
    Outcome.fail {} ["builder block count does not match segment size",
      "builder: " ++ toString builder.blockCount ++ ", segment: " ++ toString archive.options.segmentSize]
  else do
    let (segmentData, _) ← Outcome.changeContext {} [] builder.segmentData
    let archive ← segmentData.foldlM
      (fun archive segment => Outcome.changeContext {} ["failed to put segment"]
        (calls.putSegment archive firstBlockInSegment segment)) archive
    Outcome.changeContext {} ["failed to put segmented block"] (calls.putSegmented archive lastBlockInSegment.number)

end SegmentService

/-! ## Groups -/

namespace SegmentGroupService

variable (calls : CompactionCalls) (archive : Archive) (firstBlockInGroup : Cursor)

def segmentStart (place : Nat) : Cursor :=
  .newFinalized (firstBlockInGroup.number + place * archive.options.segmentSize)

def addSegment (builder : SegmentGroupBuilder) (download : Cursor) : Outcome CompactionError SegmentGroupBuilder := do
  let (_, segment) ← Outcome.changeContext {} ["failed to get segment"] (calls.getIndexSegmentAndCursor download)
  return builder.addSegment segment

def segmentQueue : Window.Loop (Fault CompactionError) Cursor Nat SegmentGroupBuilder where
  job := segmentStart archive firstBlockInGroup
  advance place := .ok (place + 1)
  slide _ := addSegment calls
  drain _ := addSegment calls
  full := .panic
  empty := .error ⟨{}, ["compaction group buffer is empty"]⟩

def addSegments : Outcome CompactionError SegmentGroupBuilder := do
  let buffer ← (segmentQueue calls archive firstBlockInGroup).run archive.options.groupSize
    (min archive.options.groupSize maxBufferedSegments) 0 { segmentSize := archive.options.segmentSize }
  return buffer.sink

def compactGroup (blocksInGroup : Nat) : Outcome CompactionError Archive := do
  let builder ← addSegments calls archive firstBlockInGroup
  if builder.segmentCount ≠ archive.options.groupSize then
    Outcome.fail {} ["builder segment count does not match group size",
      "builder: " ++ toString builder.segmentCount ++ ", group: " ++ toString archive.options.groupSize]
  else do
    let group ← Outcome.changeContext {} [] builder.build
    let archive ← Outcome.changeContext {} [] (calls.putGroup archive firstBlockInGroup group)
    Outcome.changeContext {} [] (calls.putGrouped archive (firstBlockInGroup.number + blocksInGroup - 1))

end SegmentGroupService

/-! ## The loops without a queue -/

namespace Archive

/-- The objects of a segment, one after the other. -/
def putSegments (archive : Archive) (first : Cursor) (segments : List SerializedSegment) : Archive :=
  segments.foldl (fun archive segment => archive.putSegment first segment) archive

end Archive

variable {place : Nat} {first : Cursor} {blocks : List (Cursor × Block)}

namespace SegmentService

variable {calls : CompactionCalls} {view : ChainView} {archive : Archive}

/-- The canonical blocks from `first` on, in order, as they are downloaded. -/
structure Downloads (calls : CompactionCalls) (view : ChainView) (first : Cursor) (size : Nat)
    (blocks : List (Cursor × Block)) : Prop where
  numbers : blocks.map (·.1.number) = List.range' first.number size
  canonical : ∀ entry ∈ blocks, view.canonical.Canonical entry.1
  downloaded : ∀ entry ∈ blocks, calls.getBlock entry.1 = .ok entry.2

namespace Downloads

variable {size : Nat} (downloads : Downloads calls view first size blocks)
include downloads

theorem length : blocks.length = size := by
  have sameLength := congrArg List.length downloads.numbers
  rwa [List.length_map, List.length_range'] at sameLength

theorem number {entry} (found : blocks[place]? = some entry) : entry.1.number = first.number + place := by
  have isNumber : (blocks.map (·.1.number))[place]? = some entry.1.number := by rw [List.getElem?_map, found]; rfl
  rw [downloads.numbers] at isNumber
  obtain ⟨_, same⟩ := List.getElem?_eq_some_iff.mp isNumber
  rw [List.getElem_range', Nat.one_mul] at same
  exact same.symm

theorem lastAdded_number (lower : 0 < place) (upper : place ≤ size) :
    (lastAdded first (blocks.take place)).number + 1 = first.number + place := by
  obtain ⟨before, rfl⟩ := Nat.exists_eq_succ_of_ne_zero lower.ne'
  have inside : before < blocks.length := downloads.length ▸ upper
  have isLast : (blocks.take (before + 1)).getLast? = some blocks[before] := by
    rw [List.take_succ_eq_append_getElem inside, List.getLast?_append, List.getLast?_singleton]
    rfl
  have number := downloads.number (List.getElem?_eq_getElem inside)
  rw [lastAdded, isLast, Option.map_some, Option.getD_some, number]
  rfl

theorem lastAdded_all (positive : 0 < size) : (lastAdded first blocks).number = first.number + size - 1 := by
  have isLast := downloads.lastAdded_number positive (Nat.le_refl _)
  rw [← downloads.length, List.take_length] at isLast
  rw [← downloads.length, ← isLast, Nat.add_sub_cancel]

end Downloads

theorem nextBlock_canonical {cursor next} (canonical : view.canonical.Canonical cursor)
    (follows : view.canonical.Canonical next) (isNext : next.number = cursor.number + 1)
    (below : cursor.number < view.canonical.getHead.number) : nextBlock view cursor = .ok next := by
  rw [nextBlock, canonical.getNextCursor follows isNext below.ne]
  rfl

theorem addBlock_ok {current cursor} {builder after : SegmentBuilder} {block}
    (downloaded : calls.getBlock cursor = .ok block) (added : builder.addBlock cursor block = .ok after) :
    addBlock calls current builder cursor = .ok (after, cursor) := by
  simp only [addBlock, CompactionCalls.getBlockAndCursor, downloaded, bind, Except.bind, pure, Except.pure,
    Outcome.changeContext, added]

theorem addCheckedBlock_ok {current cursor last : Cursor} {builder after : SegmentBuilder} {block}
    (downloaded : calls.getBlock cursor = .ok block) (added : builder.addBlock cursor block = .ok after)
    (follows : cursor ≠ first → cursor.number = last.number + 1) :
    addCheckedBlock calls first current builder last cursor = .ok (after, cursor) := by
  have expected : ¬(cursor ≠ first ∧ cursor.number ≠ last.number + 1) := fun both => both.2 (follows both.1)
  simp only [addCheckedBlock, addBlock_ok downloaded added, bind, Except.bind, if_neg expected]
  rfl

/-- The cursors that are downloaded, and the one after them. -/
def cursorAt (blocks : List (Cursor × Block)) (next : Cursor) (place : Nat) : Cursor :=
  (blocks[place]?.map (·.1)).getD next

theorem cursorAt_of_getElem? {next entry} (found : blocks[place]? = some entry) :
    cursorAt blocks next place = entry.1 := by
  rw [cursorAt, found]
  rfl

namespace Downloads

variable {size capacity : Nat} {next : Cursor} {builders : Nat → SegmentBuilder}

variable (downloads : Downloads calls view first size blocks)
include downloads

theorem cursorAt_canonical (follows : view.canonical.Canonical next) (isNext : next.number = first.number + size)
    (upper : place ≤ size) :
    view.canonical.Canonical (cursorAt blocks next place) ∧ (cursorAt blocks next place).number = first.number + place := by
  cases found : blocks[place]? with
  | some entry =>
    rw [cursorAt_of_getElem? found]
    exact ⟨downloads.canonical entry (List.mem_of_getElem? found), downloads.number found⟩
  | none =>
    have beyond := List.getElem?_eq_none_iff.mp found
    obtain rfl : place = size := Nat.le_antisymm upper (downloads.length ▸ beyond)
    rw [cursorAt, found]
    exact ⟨follows, isNext⟩

variable (canonical : view.canonical.Canonical first)
include canonical

theorem isFirst {entry} (found : blocks[0]? = some entry) : entry.1 = first := by
  have same := downloads.canonical entry (List.mem_of_getElem? found)
  rw [FullCanonicalChain.Canonical, downloads.number found] at same
  exact Except.ok.inj (same.symm.trans canonical)

theorem cursorAt_zero (positive : 0 < size) : cursorAt blocks next 0 = first := by
  have inside : 0 < blocks.length := downloads.length ▸ positive
  rw [cursorAt_of_getElem? (List.getElem?_eq_getElem inside)]
  exact downloads.isFirst canonical (List.getElem?_eq_getElem inside)

/-- Without the queue, the blocks are added one after the other. -/
theorem plain (follows : view.canonical.Canonical next) (isNext : next.number = first.number + size)
    (below : first.number + size ≤ view.canonical.getHead.number) (turns : ∀ place entry, blocks[place]? = some entry →
      (builders place).addBlock entry.1 entry.2 = .ok (builders (place + 1))) :
    (blockQueue calls view first).Plain size capacity (cursorAt blocks next)
      fun place => (builders place, lastAdded first (blocks.take place)) := by
  have entries : ∀ place < size, ∃ entry, blocks[place]? = some entry ∧ calls.getBlock entry.1 = .ok entry.2 ∧
      lastAdded first (blocks.take (place + 1)) = entry.1 := by
    intro place upper
    have inside : place < blocks.length := downloads.length ▸ upper
    refine ⟨_, List.getElem?_eq_getElem inside, downloads.downloaded _ (List.getElem_mem inside), ?_⟩
    rw [lastAdded, List.take_succ_eq_append_getElem inside, List.getLast?_append, List.getLast?_singleton]
    rfl
  constructor
  · intro place upper
    obtain ⟨here, _⟩ := downloads.cursorAt_canonical follows isNext upper.le
    obtain ⟨there, nextNumber⟩ := downloads.cursorAt_canonical follows isNext (Nat.succ_le_of_lt upper)
    rw [Nat.succ_eq_add_one] at there nextNumber
    exact nextBlock_canonical here there (by omega) (by omega)
  · intro place upper current
    obtain ⟨entry, found, downloaded, isLast⟩ := entries place (by omega)
    have isCursor : cursorAt blocks next place = entry.1 := cursorAt_of_getElem? found
    have added : addBlock calls current (builders place) entry.1 = .ok (builders (place + 1), entry.1) :=
      addBlock_ok downloaded (turns place entry found)
    rw [isLast, ← added, ← isCursor]
    rfl
  · intro place upper _ current
    obtain ⟨entry, found, downloaded, isLast⟩ := entries place upper
    have expected : entry.1 ≠ first → entry.1.number = (lastAdded first (blocks.take place)).number + 1 := by
      intro other
      cases place with
      | zero => exact absurd (downloads.isFirst canonical found) other
      | succ before => rw [downloads.lastAdded_number before.succ_pos upper.le, downloads.number found]
    have isCursor : cursorAt blocks next place = entry.1 := cursorAt_of_getElem? found
    have added : addCheckedBlock calls first current (builders place) (lastAdded first (blocks.take place)) entry.1 =
        .ok (builders (place + 1), entry.1) := addCheckedBlock_ok downloaded (turns place entry found) expected
    rw [isLast, ← added, ← isCursor]
    rfl

end Downloads

theorem putSegments_ok (writes : calls.Writes) (archive : Archive) (segments : List SerializedSegment) :
    segments.foldlM (fun archive segment =>
      Outcome.changeContext ({} : CompactionError) ["failed to put segment"] (calls.putSegment archive first segment))
      archive = .ok (archive.putSegments first segments) := by
  induction segments generalizing archive with
  | nil => rfl
  | cons segment others ih =>
    rw [List.foldlM_cons, writes.segment]
    exact ih (archive.putSegment first segment)

/-- The builder that `start_new_segment` starts. -/
def started (first : Cursor) : SegmentBuilder := { firstBlock := some first }

/-- The chain view has `first` and every block between it and the head. -/
structure Reaches (view : ChainView) (first : Cursor) : Prop where
  canonical : view.canonical.Canonical first
  above : ∀ number, first.number ≤ number → number ≤ view.canonical.getHead.number →
    ∃ cursor, view.canonical.Canonical cursor ∧ cursor.number = number

section Plain

variable {builder : SegmentBuilder} (reaches : Reaches view first)
  (below : first.number + archive.options.segmentSize ≤ view.canonical.getHead.number)
  (downloads : Downloads calls view first archive.options.segmentSize blocks)
  (added : blocks.foldlM (fun builder entry => builder.addBlock entry.1 entry.2) (started first) = .ok builder)
include reaches below downloads added

theorem addBlocks_plain : addBlocks calls view archive first = .ok (builder, lastAdded first blocks) := by
  obtain ⟨_, follows, isNext⟩ := reaches.above _ (Nat.le_add_right _ _) below
  obtain ⟨_, isStart, isLast, turns⟩ := foldlM_states added
  obtain ⟨buffer, ran, sink⟩ := (downloads.plain reaches.canonical follows isNext below turns).run
    (Nat.lt_min.mpr ⟨archive.options.segmentPositive, by decide⟩)
    (Nat.min_le_left archive.options.segmentSize maxBufferedBlocks)
  rw [downloads.cursorAt_zero reaches.canonical archive.options.segmentPositive, isStart] at ran
  rw [← downloads.length, isLast, List.take_length] at sink
  rw [← sink]
  exact bind_eq_ok.mpr ⟨started first, rfl, bind_eq_ok.mpr ⟨buffer, ran, rfl⟩⟩

theorem compactSegment_plain (writes : calls.Writes) {segments rest}
    (taken : builder.segmentData = .ok (segments, rest)) :
    compactSegment calls view archive first =
      .ok ((archive.putSegments first segments).putSegmented (first.number + archive.options.segmentSize - 1)) := by
  have isLast := downloads.lastAdded_all archive.options.segmentPositive
  have holds : builder.Holds first blocks :=
    SegmentBuilder.holds_of_foldlM (⟨rfl, rfl, rfl, rfl, SegmentBuilder.Grouped.empty⟩ : (started first).Holds first []) added
  have count : builder.blockCount = archive.options.segmentSize := by
    rw [SegmentBuilder.blockCount, holds.headers, List.length_map, downloads.length]
  simp only [compactSegment, addBlocks_plain reaches below downloads added, bind, Except.bind, ne_eq, count, not_true,
    if_false, taken, Outcome.changeContext.eq_1, putSegments_ok writes, writes.segmented, isLast]

end Plain

end SegmentService

namespace SegmentGroupService

variable {calls : CompactionCalls} {archive : Archive} {segments : List (Segment IndexGroupFragment)}

/-- The segments of the group, in order, as they are downloaded. -/
structure Downloads (calls : CompactionCalls) (archive : Archive) (first : Cursor)
    (segments : List (Segment IndexGroupFragment)) : Prop where
  length : segments.length = archive.options.groupSize
  downloaded : ∀ place segment, segments[place]? = some segment →
    calls.getIndexSegment (segmentStart archive first place) = .ok segment

def gathered (archive : Archive) (segments : List (Segment IndexGroupFragment)) : SegmentGroupBuilder :=
  segments.foldl SegmentGroupBuilder.addSegment { segmentSize := archive.options.segmentSize }

theorem gathered_segmentCount (archive : Archive) (segments : List (Segment IndexGroupFragment)) :
    (gathered archive segments).segmentCount = segments.length := by
  induction segments using List.reverseRecOn with
  | nil => rfl
  | append_singleton before segment ih =>
    rw [gathered, List.foldl_append, List.length_append, ← ih]
    rfl

theorem gathered_builds (archive : Archive) {segments} (nonempty : segments ≠ []) :
    ∃ group, (gathered archive segments).build = .ok group := by
  obtain rfl | ⟨before, segment, rfl⟩ := segments.eq_nil_or_concat'
  · exact absurd rfl nonempty
  · rw [gathered, List.foldl_append]
    simp only [SegmentGroupBuilder.build, List.foldl_cons, List.foldl_nil, SegmentGroupBuilder.addSegment]
    cases (before.foldl SegmentGroupBuilder.addSegment { segmentSize := archive.options.segmentSize }).blockRange with
    | none | some => exact ⟨_, rfl⟩

section
variable (downloads : Downloads calls archive first segments)
include downloads

theorem Downloads.addSegment (upper : place < archive.options.groupSize) :
    addSegment calls (gathered archive (segments.take place)) (segmentStart archive first place) =
      .ok (gathered archive (segments.take (place + 1))) := by
  have inside : place < segments.length := downloads.length ▸ upper
  have downloaded := downloads.downloaded place _ (List.getElem?_eq_getElem inside)
  rw [List.take_succ_eq_append_getElem inside, gathered, gathered, List.foldl_append]
  simp only [SegmentGroupService.addSegment, CompactionCalls.getIndexSegmentAndCursor, downloaded, bind, Except.bind,
    pure, Except.pure, Outcome.changeContext, List.foldl_cons, List.foldl_nil]

theorem Downloads.plain (capacity : Nat) :
    (segmentQueue calls archive first).Plain archive.options.groupSize capacity id
      fun place => gathered archive (segments.take place) where
  advances _ _ := rfl
  slides place more _ := downloads.addSegment (Nat.lt_of_le_of_lt (Nat.le_add_right place capacity) more)
  drains _ upper _ _ := downloads.addSegment upper

theorem addSegments_plain : addSegments calls archive first = .ok (gathered archive segments) := by
  obtain ⟨buffer, ran, sink⟩ := (downloads.plain (min archive.options.groupSize maxBufferedSegments)).run
    (Nat.lt_min.mpr ⟨archive.options.groupPositive, by decide⟩) (Nat.min_le_left _ _)
  rw [← downloads.length, List.take_length] at sink
  rw [← sink]
  exact bind_eq_ok.mpr ⟨buffer, ran, rfl⟩

end

theorem compactGroup_plain (writes : calls.Writes) (downloads : Downloads calls archive first segments) {group}
    (built : (gathered archive segments).build = .ok group) (blocksInGroup : Nat) :
    compactGroup calls archive first blocksInGroup =
      .ok ((archive.putGroup first group).putGrouped (first.number + blocksInGroup - 1)) := by
  have count : (gathered archive segments).segmentCount = archive.options.groupSize :=
    (gathered_segmentCount archive segments).trans downloads.length
  simp only [compactGroup, addSegments_plain downloads, bind, Except.bind, ne_eq, count, not_true, if_false, built,
    Outcome.changeContext, writes.group, writes.grouped]

end SegmentGroupService

/-! ## The stages of the services

The stages make one download after the other, and end in the same archive.
-/

/-- The service takes a step, while the chain view stays the same. -/
def SegmentStage.Steps (view : ChainView) (before after : Archive × SegmentStage) : Prop :=
  before.2.step view before.1 = some after

def GroupStage.Steps (view : ChainView) (before after : Archive × GroupStage) : Prop :=
  before.2.step view before.1 = some after

theorem SegmentStage.uploads (view : ChainView) (archive : Archive) (first last : Cursor)
    (segments : List SerializedSegment) :
    Relation.ReflTransGen (SegmentStage.Steps view) (archive, .uploading first last segments)
      ((archive.putSegments first segments).putSegmented last.number, .deciding .start) := by
  induction segments generalizing archive with
  | nil => exact .single rfl
  | cons segment others ih => exact .head rfl (ih (archive.putSegment first segment))

namespace SegmentService

section Stages

variable {calls : CompactionCalls} {view : ChainView} {archive : Archive} {next : Cursor}
  (downloads : Downloads calls view first archive.options.segmentSize blocks)
include downloads

theorem followingCursor_cursorAt (follows : view.canonical.Canonical next)
    (isNext : next.number = first.number + archive.options.segmentSize)
    (below : first.number + archive.options.segmentSize ≤ view.canonical.getHead.number)
    (upper : place < archive.options.segmentSize) :
    followingCursor view (cursorAt blocks next place) = some (cursorAt blocks next (place + 1)) := by
  obtain ⟨here, number⟩ := downloads.cursorAt_canonical follows isNext upper.le
  obtain ⟨there, nextNumber⟩ := downloads.cursorAt_canonical follows isNext (Nat.succ_le_of_lt upper)
  have belowHead : (cursorAt blocks next place).number ≠ view.canonical.recent.info.lastBlock.number :=
    Nat.ne_of_lt (Nat.lt_of_lt_of_le (by omega) below)
  rw [followingCursor, here.getNextCursor there (nextNumber.trans (by rw [number]; rfl)) belowHead]

variable (stored : ∀ entry ∈ blocks, archive.store.getBlock entry.1 = some entry.2)
include stored

theorem steps_fetching (upper : place < archive.options.segmentSize) :
    SegmentStage.Steps view (archive, .fetching first (blocks.take place) (cursorAt blocks next place))
      (archive, .advancing first (blocks.take (place + 1)) (cursorAt blocks next place)) := by
  have inside : place < blocks.length := downloads.length ▸ upper
  have found := List.getElem?_eq_getElem inside
  rw [cursorAt_of_getElem? found, SegmentStage.Steps]
  simp only [SegmentStage.step, stored _ (List.getElem_mem inside), List.take_succ_eq_append_getElem inside]

theorem reaches_advancing (follows : view.canonical.Canonical next)
    (isNext : next.number = first.number + archive.options.segmentSize)
    (below : first.number + archive.options.segmentSize ≤ view.canonical.getHead.number)
    (upper : place < archive.options.segmentSize) :
    Relation.ReflTransGen (SegmentStage.Steps view) (archive, .fetching first [] (cursorAt blocks next 0))
      (archive, .advancing first (blocks.take (place + 1)) (cursorAt blocks next place)) := by
  induction place with
  | zero => exact .single (steps_fetching downloads stored upper)
  | succ place ih =>
    have more : (blocks.take (place + 1)).length < archive.options.segmentSize := by
      rw [List.length_take, downloads.length]
      omega
    have advances : SegmentStage.Steps view
        (archive, .advancing first (blocks.take (place + 1)) (cursorAt blocks next place))
        (archive, .fetching first (blocks.take (place + 1)) (cursorAt blocks next (place + 1))) := by
      rw [SegmentStage.Steps]
      simp only [SegmentStage.step,
        followingCursor_cursorAt downloads follows isNext below (Nat.lt_of_succ_lt upper), if_pos more]
    exact ((ih (Nat.lt_of_succ_lt upper)).tail advances).tail (steps_fetching downloads stored upper)

end Stages

/-- The segment service of the cluster compacts a segment as `compact_segment` does. -/
theorem segmentStage_compacts {calls view} {archive : Archive} (reaches : Reaches view first)
    (below : first.number + archive.options.segmentSize ≤ view.canonical.getHead.number)
    (downloads : Downloads calls view first archive.options.segmentSize blocks)
    (stored : ∀ entry ∈ blocks, archive.store.getBlock entry.1 = some entry.2) (writes : calls.Writes) {segments rest}
    (built : SegmentBuilder.build {} first blocks = .ok (segments, rest)) :
    ∃ after, compactSegment calls view archive first = .ok after ∧
      Relation.ReflTransGen (SegmentStage.Steps view) (archive, .deciding (.compacting first)) (after, .deciding .start) := by
  obtain ⟨begun, isBegun, later⟩ := bind_eq_ok.mp built
  obtain rfl : started first = begun := Except.ok.inj isBegun
  obtain ⟨_, added, taken⟩ := bind_eq_ok.mp later
  refine ⟨_, compactSegment_plain reaches below downloads added writes taken, ?_⟩
  obtain ⟨next, follows, isNext⟩ := reaches.above _ (Nat.le_add_right _ _) below
  obtain ⟨before, size⟩ := Nat.exists_eq_succ_of_ne_zero archive.options.segmentPositive.ne'
  have upper : before < archive.options.segmentSize := size ▸ Nat.lt_succ_self before
  have all : blocks.take (before + 1) = blocks := List.take_of_length_le (downloads.length.trans size).le
  have gathered := reaches_advancing downloads stored follows isNext below upper
  rw [all, downloads.cursorAt_zero reaches.canonical archive.options.segmentPositive] at gathered
  have uploading : SegmentStage.Steps view (archive, .advancing first blocks (cursorAt blocks next before))
      (archive, .uploading first (lastAdded first blocks) segments) := by
    rw [SegmentStage.Steps]
    simp only [SegmentStage.step, followingCursor_cursorAt downloads follows isNext below upper,
      downloads.length, Nat.lt_irrefl, if_false, built]
  have begins : SegmentStage.Steps view (archive, .deciding (.compacting first)) (archive, .fetching first [] first) := rfl
  rw [← downloads.lastAdded_all archive.options.segmentPositive]
  exact .head begins (gathered.trans (.head uploading (SegmentStage.uploads view archive first _ segments)))

end SegmentService

namespace SegmentGroupService

variable {calls : CompactionCalls} {view : ChainView} {archive : Archive} {segments : List (Segment IndexGroupFragment)}

variable (downloads : Downloads calls archive first segments)
  (stored : ∀ place segment, segments[place]? = some segment → archive.store.getIndexSegment (segmentStart archive first place).number = some segment)
include downloads stored

theorem reaches_fetching (upper : place ≤ archive.options.groupSize) :
    Relation.ReflTransGen (GroupStage.Steps view) (archive, .fetching first [])
      (archive, .fetching first (segments.take place)) := by
  induction place with
  | zero => exact .refl
  | succ place ih =>
    have inside : place < segments.length := downloads.length ▸ upper
    have length : (segments.take place).length = place := List.length_take_of_le inside.le
    have found := stored place _ (List.getElem?_eq_getElem inside)
    refine (ih (Nat.le_of_succ_le upper)).tail ?_
    rw [GroupStage.Steps, List.take_succ_eq_append_getElem inside]
    rw [segmentStart, Cursor.newFinalized] at found
    simp only [GroupStage.step, length, if_pos (Nat.lt_of_succ_le upper), found]

/-- The group service of the cluster compacts a group as `compact_group` does. -/
theorem groupStage_compacts (writes : calls.Writes) {group} (built : (gathered archive segments).build = .ok group) :
    ∃ after, compactGroup calls archive first archive.options.blocksInGroup = .ok after ∧
      Relation.ReflTransGen (GroupStage.Steps view) (archive, .deciding (.compacting first)) (after, .deciding .start) := by
  refine ⟨_, compactGroup_plain writes downloads built _, ?_⟩
  have begins : GroupStage.Steps view (archive, .deciding (.compacting first)) (archive, .fetching first []) := rfl
  have fetched : Relation.ReflTransGen (GroupStage.Steps view) (archive, .fetching first [])
      (archive, .fetching first (segments.take archive.options.groupSize)) :=
    reaches_fetching downloads stored (Nat.le_refl _)
  rw [← downloads.length, List.take_length] at fetched
  have recording : GroupStage.Steps view (archive, .fetching first segments) (archive.putGroup first group, .recording first) := by
    have group : SegmentGroupBuilder.group archive.options.segmentSize segments = .ok group := built
    rw [GroupStage.Steps]
    simp only [GroupStage.step, downloads.length, Nat.lt_irrefl, if_false, group]
  have recorded : GroupStage.Steps view (archive.putGroup first group, .recording first)
      ((archive.putGroup first group).putGrouped (first.number + archive.options.blocksInGroup - 1), .deciding .start) := rfl
  exact .head begins ((fetched.tail recording).tail recorded)

end SegmentGroupService

/-- If no call fails, the queues change nothing.  The segment service gives the builder
    the canonical blocks of the segment in order and then records its last block; the
    group service gives it the index segments of the group in order and then records its
    last block.  A full queue, an empty one or a wrong count would be an error. -/
theorem buffered_compaction_plain {calls : CompactionCalls} (writes : calls.Writes) (view : ChainView) (archive : Archive)
    (first : Cursor) :
    (SegmentService.Reaches view first →
      first.number + archive.options.segmentSize ≤ min view.finalized view.canonical.getHead.number →
      ∀ blocks builder segments rest,
        SegmentService.Downloads calls view first archive.options.segmentSize blocks →
        blocks.foldlM (fun builder entry => builder.addBlock entry.1 entry.2) (SegmentService.started first) =
          .ok builder → builder.segmentData = .ok (segments, rest) →
        SegmentService.addBlocks calls view archive first = .ok (builder, lastAdded first blocks) ∧
        SegmentService.compactSegment calls view archive first =
          .ok ((archive.putSegments first segments).putSegmented (first.number + archive.options.segmentSize - 1))) ∧
    ∀ segments group, SegmentGroupService.Downloads calls archive first segments →
      (SegmentGroupService.gathered archive segments).build = .ok group →
      SegmentGroupService.addSegments calls archive first = .ok (SegmentGroupService.gathered archive segments) ∧
      SegmentGroupService.compactGroup calls archive first archive.options.blocksInGroup =
        .ok ((archive.putGroup first group).putGrouped
          (first.number + archive.options.groupSize * archive.options.segmentSize - 1)) := by
  constructor
  · intro reaches guard blocks builder segments rest downloads added taken
    have below := guard.trans (Nat.min_le_right _ _)
    exact ⟨SegmentService.addBlocks_plain reaches below downloads added,
      SegmentService.compactSegment_plain reaches below downloads added writes taken⟩
  · intro segments group downloads built
    exact ⟨SegmentGroupService.addSegments_plain downloads,
      SegmentGroupService.compactGroup_plain writes downloads built _⟩

namespace LongSegments

/-! A segment of 130 blocks and a group of 130 segments, two more than the queues hold. -/

def cursor (number : Nat) : Cursor := ⟨number, ⟨[.ofNat number]⟩⟩

def block (number : Nat) : Block := TwoBlockSegment.blockOf (.ofNat number) (.uint8 number)

def view : ChainView :=
  .new 130 none none 130 130
    ⟨fun _ => .ok none, 0, 1,
      ⟨none, ⟨cursor 0, cursor 130⟩, (List.range 131).map fun number => ⟨(cursor number).hash, ∅⟩, []⟩⟩

def archive : Archive := .fresh ⟨130, 130, by decide, by decide⟩ TwoBlockSegment.fragmentInfo

def indexSegment (place : Nat) : Segment IndexGroupFragment :=
  ⟨cursor (place * 130), (List.range' (place * 130) 130).map fun number => ⟨cursor number, (block number).index⟩⟩

def calls : CompactionCalls where
  getBlock cursor := .ok (block cursor.number)
  getIndexSegment cursor := .ok (indexSegment (cursor.number / 130))
  putSegment archive first segment := .ok (archive.putSegment first segment)
  putSegmented archive block := .ok (archive.putSegmented block)
  putGroup archive first group := .ok (archive.putGroup first group)
  putGrouped archive block := .ok (archive.putGrouped block)

theorem writes : calls.Writes := ⟨fun _ _ _ => rfl, fun _ _ => rfl, fun _ _ _ => rfl, fun _ _ => rfl⟩

theorem canonical {number} (below : number ≤ 130) : view.canonical.Canonical (cursor number) := by
  have inside : number < 131 := Nat.lt_succ_of_le below
  simp [FullCanonicalChain.Canonical, FullCanonicalChain.getCanonicalImpl, FullCanonicalChain.getChainSegment, view,
    ChainView.new, cursor, CanonicalChainSegment.canonicalAt, CanonicalChainSegment.blockAt, inside, not_lt.mpr below,
    bind, Except.bind, pure, Except.pure, Outcome.changeContext]

theorem reaches : SegmentService.Reaches view (cursor 0) :=
  ⟨canonical (Nat.zero_le _), fun number _ upper => ⟨cursor number, canonical upper, rfl⟩⟩

def entries : List (Cursor × Block) := (List.range' 0 130).map fun number => (cursor number, block number)

theorem downloads : SegmentService.Downloads calls view (cursor 0) 130 entries := by
  refine ⟨by simp [entries, cursor, Function.comp_def], List.forall_mem_map.mpr fun number inside => ?_,
    List.forall_mem_map.mpr fun _ _ => rfl⟩
  exact canonical (by simp at inside; omega)

def indexSegments : List (Segment IndexGroupFragment) := (List.range 130).map indexSegment

theorem indexDownloads : SegmentGroupService.Downloads calls archive (cursor 0) indexSegments := by
  refine ⟨by simp [indexSegments]; rfl, fun place segment found => ?_⟩
  rw [indexSegments, List.getElem?_map, Option.map_eq_some_iff] at found
  obtain ⟨_, isPlace, rfl⟩ := found
  obtain ⟨_, isPlace⟩ := List.getElem?_eq_some_iff.mp isPlace
  rw [List.getElem_range] at isPlace
  subst isPlace
  have start : (SegmentGroupService.segmentStart archive (cursor 0) place).number / 130 = place := by
    simp [SegmentGroupService.segmentStart, Cursor.newFinalized, archive, Archive.fresh, cursor]
  exact congrArg (Except.ok ∘ indexSegment) start

theorem buffered_compaction_long :
    (∃ builder segments rest,
      entries.foldlM (fun builder entry => builder.addBlock entry.1 entry.2) (SegmentService.started (cursor 0)) =
        .ok builder ∧
      builder.segmentData = .ok (segments, rest) ∧
      SegmentService.addBlocks calls view archive (cursor 0) = .ok (builder, lastAdded (cursor 0) entries) ∧
      SegmentService.compactSegment calls view archive (cursor 0) =
        .ok ((archive.putSegments (cursor 0) segments).putSegmented 129)) ∧
    ∃ group, (SegmentGroupService.gathered archive indexSegments).build = .ok group ∧
      SegmentGroupService.addSegments calls archive (cursor 0) = .ok (SegmentGroupService.gathered archive indexSegments) ∧
      SegmentGroupService.compactGroup calls archive (cursor 0) 16900 =
        .ok ((archive.putGroup (cursor 0) group).putGrouped 16899) := by
  obtain ⟨segmentLoop, groupLoop⟩ := buffered_compaction_plain writes view archive (cursor 0)
  have provided : ∀ entry ∈ entries, entry.2.Provides TwoBlockSegment.fragmentInfo :=
    List.forall_mem_map.mpr fun _ _ => rfl
  have counted : ∀ entry ∈ entries, entry.2.body.length = 2 := List.forall_mem_map.mpr fun _ _ => rfl
  have begun : (SegmentService.started (cursor 0)).Holds (cursor 0) [] :=
    ⟨rfl, rfl, rfl, rfl, SegmentBuilder.Grouped.empty⟩
  constructor
  · have unexpected : ∀ other, (SegmentService.started (cursor 0)).expectedFragmentCount = some other → other = 2 := by
      rintro _ ⟨⟩
    obtain ⟨builder, added⟩ := SegmentBuilder.foldlM_addBlock unexpected counted
    have holds := SegmentBuilder.holds_of_foldlM begun added
    obtain ⟨segments, rest, taken⟩ := SegmentBuilder.segmentData_of_provides (by decide) holds provided
    exact ⟨builder, segments, rest, added, taken,
      segmentLoop reaches (by decide) entries builder segments rest downloads added taken⟩
  · have nonempty : indexSegments ≠ [] := List.map_eq_nil_iff.not.mpr (by decide)
    obtain ⟨group, built⟩ := SegmentGroupService.gathered_builds archive nonempty
    exact ⟨group, built, groupLoop indexSegments group indexDownloads built⟩

end LongSegments

end Starkstream
