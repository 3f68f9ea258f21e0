import Starkstream.Core

/-! # The canonical chain builder

Blocks are kept twice: `info` holds the first and the last cursor, `canonical`
the hashes in between, and `reorgs` maps the number of every removed block to
the hashes removed at that number and the block each of them was reorged to.

A call returns its result together with the builder it leaves behind, also when
the result is an error, so that what a failed call does to the builder is a
statement about the model and not built into it.  Indexing out of bounds,
subtracting below zero and the sanity assertion of `shrink` are panics.
-/

namespace Starkstream

open Std (ExtTreeMap)

structure BlockInfo where
  number : Nat
  hash : Hash
  parent : Hash
  deriving DecidableEq, Inhabited

structure PendingBlockInfo where
  number : Nat
  generation : Nat
  parent : Hash
  deriving DecidableEq, Inhabited

def BlockInfo.cursor (block : BlockInfo) : Cursor := ⟨block.number, block.hash⟩

def BlockInfo.parentCursor (block : BlockInfo) : Option Cursor :=
  if block.number = 0 then none else some ⟨block.number - 1, block.parent⟩

/-- What action to take on reconnection. -/
inductive ReconnectAction where
  | continue
  /-- There was a reorg while offline. The new head is provided. -/
  | offlineReorg (target : Cursor)
  | unknown
  deriving DecidableEq

/-- Removed hash to reorg target, both at the block number that holds the map. -/
abbrev ReorgMap := ExtTreeMap Hash Cursor

/-- The reorg maps of a builder, by block number. -/
abbrev Reorgs := ExtTreeMap Nat ReorgMap

structure CanonicalBlock where
  hash : Hash
  reorgs : ReorgMap
  deriving DecidableEq

structure ExtraReorg where
  blockNumber : Nat
  reorgs : ReorgMap
  deriving DecidableEq

structure CanonicalChainSegmentInfo where
  firstBlock : Cursor
  lastBlock : Cursor
  deriving DecidableEq, Inhabited

structure CanonicalChainSegment where
  previousSegment : Option CanonicalChainSegmentInfo
  info : CanonicalChainSegmentInfo
  canonical : List CanonicalBlock
  extraReorgs : List ExtraReorg
  deriving DecidableEq

inductive CanonicalChainError where
  | builder
  | view
  deriving DecidableEq

/-- The fields of a builder that has at least one block. -/
structure Building where
  previousSegment : Option CanonicalChainSegmentInfo
  info : CanonicalChainSegmentInfo
  canonical : List Hash
  reorgs : Reorgs
  deriving DecidableEq

inductive CanonicalChainBuilder where
  | empty
  | building (state : Building)
  deriving DecidableEq

abbrev ChainOutcome (α : Type) := Outcome CanonicalChainError α

namespace CanonicalChainBuilder

/-- The `reorgs` map that `restore_from_segment` inserts into, block by block. -/
def restoreReorgs : Nat → List CanonicalBlock → Reorgs → Reorgs
  | _, [], reorgs => reorgs
  | number, block :: rest, reorgs =>
    restoreReorgs (number + 1) rest (reorgs.insert number block.reorgs)

/-- Rebuilds the builder from a snapshot.  The source never looks at the
    `extra_reorgs` of the segment, and neither does this definition. -/
def restoreFromSegment (segment : CanonicalChainSegment) : CanonicalChainBuilder :=
  .building
    { previousSegment := segment.previousSegment
      info := segment.info
      canonical := segment.canonical.map (·.hash)
      reorgs := restoreReorgs segment.info.firstBlock.number segment.canonical ∅ }

def segmentSize : CanonicalChainBuilder → Nat
  | .empty => 0
  | .building state => state.canonical.length

/-- A block with a zero hash can be followed by any block. -/
def canGrow (builder : CanonicalChainBuilder) (block : BlockInfo) : Bool :=
  match builder with
  | .empty => true
  | .building state =>
    let lastBlock := state.info.lastBlock
    if lastBlock.hash.isZero then true
    else decide (lastBlock.number + 1 = block.number) && lastBlock.hash == block.parent

def grow (builder : CanonicalChainBuilder) (block : BlockInfo) :
    ChainOutcome Unit × CanonicalChainBuilder :=
  if !builder.canGrow block then
    (Outcome.fail .builder ["block cannot be applied to the current segment"], builder)
  else
    match builder with
    | .empty =>
      (.ok (), .building
        { previousSegment := none
          info := { firstBlock := block.cursor, lastBlock := block.cursor }
          canonical := [block.hash]
          reorgs := ∅ })
    | .building state =>
      (.ok (), .building
        { state with
          info := { state.info with lastBlock := block.cursor }
          canonical := state.canonical ++ [block.hash] })

/-- The loop of `shrink`: `number` is the number of the next block removed. -/
def recordRemoved (newHead : Cursor) : Nat → List Hash → Reorgs → Reorgs
  | _, [], reorgs => reorgs
  | number, hash :: rest, reorgs =>
    recordRemoved newHead (number + 1) rest
      (reorgs.insert number ((reorgs.getD number ∅).insert hash newHead))

/-- The cursors that `shrink` returns. -/
def removedCursors (number : Nat) (hashes : List Hash) : List Cursor :=
  hashes.mapIdx fun offset hash => ⟨number + offset, hash⟩

/-- Shrink the current segment to the given block and return the removed
    blocks.  By design the first block cannot be removed. -/
def shrink (builder : CanonicalChainBuilder) (newHead : Cursor) :
    ChainOutcome (List Cursor) × CanonicalChainBuilder :=
  match builder with
  | .empty => (Outcome.fail .builder ["tried to shrink an empty segment"], builder)
  | .building state =>
    let first := state.info.firstBlock.number
    let newHeadIndex := newHead.number - first
    if newHead.number < first then
      (Outcome.fail .builder
        ["tried to shrink a segment to a block that is not in the segment",
          "first block number: " ++ toString first,
          "new head number: " ++ toString newHead.number], builder)
    else if newHead.number > state.info.lastBlock.number then
      (Outcome.fail .builder
        ["tried to shrink a segment to a block that is not ingested yet",
          "last block number: " ++ toString state.info.lastBlock.number,
          "new head number: " ++ toString newHead.number], builder)
    else if state.canonical[newHeadIndex]? ≠ some newHead.hash then
      (Outcome.fail .builder
        ["inconsistent state: tried to shrink a segment to a block that is not in the segment"],
        builder)
    else if newHeadIndex = state.canonical.length - 1 then
      (.ok [], builder)
    else
      let removed := state.canonical.drop (newHeadIndex + 1)
      let shrunk : Building :=
        { state with
          info := { state.info with lastBlock := newHead }
          canonical := state.canonical.take (newHeadIndex + 1)
          reorgs := recordRemoved newHead (first + (newHeadIndex + 1)) removed state.reorgs }
      if shrunk.canonical.length = newHead.number - first + 1 then
        (.ok (removedCursors (first + (newHeadIndex + 1)) removed), .building shrunk)
      else
        (.error .panic, .building shrunk)

/-- The canonical blocks of a snapshot, each with the reorgs at its number. -/
def segmentBlocks (first : Nat) (canonical : List Hash) (reorgs : Reorgs) : List CanonicalBlock :=
  canonical.mapIdx fun offset hash => ⟨hash, reorgs.getD (first + offset) ∅⟩

/-- The reorgs of a snapshot at numbers above its last block. -/
def extraReorgs (last : Nat) (reorgs : Reorgs) : List ExtraReorg :=
  reorgs.toList.filterMap fun entry =>
    if entry.1 > last then some ⟨entry.1, entry.2⟩ else none

/-- The current builder's state ready for serialization. -/
def currentSegment : CanonicalChainBuilder → ChainOutcome CanonicalChainSegment
  | .empty => Outcome.fail .builder ["tried to take an empty segment"]
  | .building state => .ok
      { previousSegment := state.previousSegment
        info := state.info
        canonical := segmentBlocks state.info.firstBlock.number state.canonical state.reorgs
        extraReorgs := extraReorgs state.info.lastBlock.number state.reorgs }

/-- The loop of `take_segment`: drain the hashes and remove their reorg maps. -/
def drainBlocks : Nat → List Hash → Reorgs → List CanonicalBlock × Reorgs
  | _, [], reorgs => ([], reorgs)
  | number, hash :: rest, reorgs =>
    let drained := drainBlocks (number + 1) rest (reorgs.erase number)
    (⟨hash, reorgs.getD number ∅⟩ :: drained.1, drained.2)

/-- Take the first `size` blocks from the current segment. -/
def takeSegment (builder : CanonicalChainBuilder) (size : Nat) :
    ChainOutcome CanonicalChainSegment × CanonicalChainBuilder :=
  match builder with
  | .empty => (Outcome.fail .builder ["tried to take an empty segment"], builder)
  | .building state =>
    let first := state.info.firstBlock
    let last := state.info.lastBlock
    if last.number < first.number then (.error .panic, builder)
    else if last.number - first.number < size then
      (Outcome.fail .builder ["tried to take a segment that is too small"], builder)
    else if size = 0 then (.error .panic, builder)
    else
      match state.canonical[size - 1]?, state.canonical[size]? with
      | some lastHash, some nextHash =>
        let drained := drainBlocks first.number (state.canonical.take size) state.reorgs
        let segmentInfo : CanonicalChainSegmentInfo :=
          { firstBlock := first, lastBlock := ⟨first.number + size - 1, lastHash⟩ }
        (.ok
          { previousSegment := state.previousSegment
            info := segmentInfo
            canonical := drained.1
            extraReorgs := [] },
          .building
            { previousSegment := some segmentInfo
              info := { state.info with firstBlock := ⟨first.number + size, nextHash⟩ }
              canonical := state.canonical.drop size
              reorgs := drained.2 })
      -- `canonical[size - 1]` or, once the blocks are drained, `canonical[0]`
      | _, _ => (.error .panic, builder)

end CanonicalChainBuilder

end Starkstream
