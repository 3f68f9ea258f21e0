import Starkstream.ChainView.View
import Starkstream.Query.Filter

/-! # Fetching segments ahead of the client

`SegmentStream::start` runs as a task of its own.  It reads the chain view a few
times and sends one fetch per segment through a bounded channel.  One step of the
task goes from one such read or send to the next.  Block numbers are cut to 32
bits where the source keeps them in a bitmap.

What the filters of a client match in the index of a group or of a block is a
parameter; whether an object can be fetched is an argument of the step.
-/

namespace Starkstream

structure DataStreamError where
  deriving DecidableEq

structure BlockFilter where
  headerFilter : HeaderFilter
  /-- The blocks that the filters match in the index of the group with the given
      first block. -/
  groupRows : Nat → Outcome DataStreamError (List Nat)
  /-- Whether the filters match anything in the given block. -/
  blockMatches : Cursor → Outcome DataStreamError Bool

namespace BlockFilter

def alwaysIncludeHeader (filter : BlockFilter) : Bool := filter.headerFilter == .always

end BlockFilter

/-- `as u32`. -/
def asU32 (number : Nat) : Nat := number % 2 ^ 32

/-- The bitmap of `start as u32..stop as u32`, ascending. -/
def bitmapRange (start stop : Nat) : List Nat :=
  List.range' (asU32 start) (asU32 stop - asU32 start)

theorem bitmapRange_eq {start stop} (ordered : start ≤ stop) (small : stop < 2 ^ 32) :
    bitmapRange start stop = List.range' start (stop - start) := by
  rw [bitmapRange, asU32, asU32, Nat.mod_eq_of_lt small, Nat.mod_eq_of_lt (ordered.trans_lt small)]

structure SegmentAccessFetch where
  firstBlock : Nat
  blocks : List Nat
  deriving DecidableEq

/-- Add the blocks of a group that have data for one more filter. -/
def addBlocksWithData (groupStart blocksInGroup : Nat) (found : List Nat) (filter : BlockFilter) :
    Outcome DataStreamError (List Nat) := do
  -- If the client requested all headers include all blocks in the group.
  let all := if filter.alwaysIncludeHeader then bitmapRange groupStart (groupStart + blocksInGroup) else []
  let rows ← filter.groupRows groupStart
  return found ++ all ++ rows

/-- The blocks of a group that have data for one of the filters. -/
def blocksWithData (filters : List BlockFilter) (groupStart blocksInGroup : Nat) :
    Outcome DataStreamError (List Nat) :=
  filters.foldlM (addBlocksWithData groupStart blocksInGroup) []

/-- The fetches of one group, in the order in which they are sent. -/
def groupFetches (filters : List BlockFilter) (groupStart groupSize segmentSize : Nat) :
    Outcome DataStreamError (List SegmentAccessFetch) := do
  let found ← blocksWithData filters groupStart (groupSize * segmentSize)
  return (List.range groupSize).filterMap fun segmentOffset =>
    let segmentStart := groupStart + segmentOffset * segmentSize
    let blocks := (bitmapRange segmentStart (segmentStart + segmentSize)).filter (· ∈ found)
    if blocks.isEmpty then none else some ⟨segmentStart, blocks⟩

def groupQueueSize : Nat := 4

/-- Push groups to the queue while there is room and a group to push. -/
def fillQueue (grouped blocksInGroup : Nat) : Nat → List Nat → Nat → List Nat × Nat
  | 0, queue, nextGroup => (queue, nextGroup)
  | room + 1, queue, nextGroup =>
    if nextGroup ≤ grouped then
      fillQueue grouped blocksInGroup room (queue ++ [nextGroup]) (nextGroup + blocksInGroup)
    else (queue, nextGroup)

/-- The variables of the loop over groups. -/
structure GroupLoop where
  current : Nat
  grouped : Nat
  queue : List Nat
  nextGroup : Nat
  deriving DecidableEq

/-- Where `SegmentStream::start` stands. -/
inductive SegmentTask where
  | starting (cursor : Cursor)
  | readGrouped (current : Nat)
  /-- At the condition of the loop over groups. -/
  | groups (loop : GroupLoop)
  /-- In the loop over the segments of a group. -/
  | sendGroup (loop : GroupLoop) (outgoing : List SegmentAccessFetch)
  | readSegmented (current : Nat)
  /-- At the condition of the loop over segments. -/
  | segments (current segmented : Nat)
  /-- The task returned, with an error unless `ok`. -/
  | finished (ok : Bool)
  deriving DecidableEq

namespace SegmentTask

def failed : SegmentTask := .finished false

/-- One turn of the loop over groups, up to the fetches that are sent next. -/
def fetchGroup (view : ChainView) (filters : List BlockFilter) (found : Bool) (loop : GroupLoop) :
    SegmentTask :=
  let blocksInGroup := view.groupSize * view.segmentSize
  let (queue, nextGroup) :=
    fillQueue loop.grouped blocksInGroup (groupQueueSize - loop.queue.length) loop.queue loop.nextGroup
  match queue with
  | [] => failed
  | fetched :: rest =>
    if found = false ∨ loop.current ≠ fetched then failed
    else
      match groupFetches filters loop.current view.groupSize view.segmentSize with
      | .ok outgoing => .sendGroup { loop with queue := rest, nextGroup } outgoing
      | .error _ => failed

def nextGroup (view : ChainView) (loop : GroupLoop) : SegmentTask :=
  let current := loop.current + view.segmentSize * view.groupSize
  -- Since checking the grouped cursor locks the state, do it if it's really needed.
  if loop.grouped = current then
    match view.getGroupedCursor with
    | .ok (some grouped) => .groups { loop with current, grouped := grouped.number }
    | .ok none => .finished true
    | .error _ => failed
  else .groups { loop with current }

/-- One step of the task.  `found` says whether what the step looks up can be
    fetched; a task that waits for room in the channel has no step. -/
def step (view : ChainView) (filters : List BlockFilter) (capacity : Nat) (found : Bool)
    (channel : List SegmentAccessFetch) : SegmentTask → Option (SegmentTask × List SegmentAccessFetch)
  | .starting cursor =>
    match view.getGroupStartBlock cursor.number with
    | .ok current => some (.readGrouped current, channel)
    | .error _ => some (failed, channel)
  | .readGrouped current =>
    match view.getGroupedCursor with
    | .ok (some grouped) => some (.groups ⟨current, grouped.number, [], current⟩, channel)
    | .ok none => some (.readSegmented current, channel)
    | .error _ => some (failed, channel)
  | .groups loop =>
    if loop.current ≤ loop.grouped then some (fetchGroup view filters found loop, channel)
    else some (.readSegmented loop.current, channel)
  | .sendGroup loop [] => some (nextGroup view loop, channel)
  | .sendGroup loop (fetch :: rest) =>
    if found = false then some (failed, channel)
    else if channel.length < capacity then some (.sendGroup loop rest, channel ++ [fetch])
    else none
  | .readSegmented current =>
    match view.getSegmentedCursor with
    | .ok (some segmented) => some (.segments current segmented.number, channel)
    | .ok none => some (.finished true, channel)
    | .error _ => some (failed, channel)
  | .segments current segmented =>
    if current ≤ segmented then
      if found = false then some (failed, channel)
      else if channel.length < capacity then
        some (.segments (current + view.segmentSize) segmented,
          channel ++ [⟨current, bitmapRange current (current + view.segmentSize)⟩])
      else none
    else some (.finished true, channel)
  | .finished _ => none

end SegmentTask

end Starkstream
