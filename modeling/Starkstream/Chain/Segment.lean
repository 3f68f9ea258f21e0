import Starkstream.Chain.Builder

/-! # Queries on a canonical chain segment

`canonical`, `siblings` and `reconnect` look a block number up in three ranges:
before the first block, after the last block, and in between.  After the last
block only the extra reorgs are left to look at.
-/

namespace Starkstream

open Std (ExtTreeMap)

namespace CanonicalChainSegment

/-- The first entry of `extra_reorgs` for the given block number. -/
def findExtra (segment : CanonicalChainSegment) (number : Nat) : Option ReorgMap :=
  (segment.extraReorgs.find? (fun extra => extra.blockNumber = number)).map (·.reorgs)

/-- `self.canonical[offset]`, the block at a number inside the segment. -/
def blockAt (segment : CanonicalChainSegment) (number : Nat) : ChainOutcome CanonicalBlock :=
  match segment.canonical[number - segment.info.firstBlock.number]? with
  | some block => .ok block
  | none => .error .panic

def beforeFirst {α : Type} (segment : CanonicalChainSegment) (cursor : Cursor) : ChainOutcome α :=
  Outcome.fail .view
    ["cursor is before the first block", "cursor: " ++ cursor.debug,
      "first block: " ++ segment.info.firstBlock.debug]

def afterLast {α : Type} (segment : CanonicalChainSegment) (cursor : Cursor) : ChainOutcome α :=
  Outcome.fail .view
    ["cursor is after the last block", "cursor: " ++ cursor.debug,
      "last block: " ++ segment.info.lastBlock.debug]

def canonicalAt (segment : CanonicalChainSegment) (blockNumber : Nat) : ChainOutcome Cursor :=
  if blockNumber < segment.info.firstBlock.number then
    Outcome.fail .view
      ["block number is before the first block", "block number: " ++ toString blockNumber,
        "first block: " ++ segment.info.firstBlock.debug]
  else if blockNumber > segment.info.lastBlock.number then
    Outcome.fail .view
      ["block number is after the last block", "block number: " ++ toString blockNumber,
        "last block: " ++ segment.info.lastBlock.debug]
  else do
    let block ← segment.blockAt blockNumber
    return ⟨blockNumber, block.hash⟩

def siblings (segment : CanonicalChainSegment) (cursor : Cursor) : ChainOutcome (List Cursor) :=
  if cursor.number < segment.info.firstBlock.number then segment.beforeFirst cursor
  else if cursor.number > segment.info.lastBlock.number then
    -- The block could have been reorged while the chain shrunk.
    match segment.findExtra cursor.number with
    | none => segment.afterLast cursor
    | some reorgs => .ok (reorgs.keys.map fun hash => ⟨cursor.number, hash⟩)
  else do
    let block ← segment.blockAt cursor.number
    return block.reorgs.keys.map fun hash => ⟨cursor.number, hash⟩

def reconnect (segment : CanonicalChainSegment) (cursor : Cursor) : ChainOutcome ReconnectAction :=
  if cursor.number < segment.info.firstBlock.number then segment.beforeFirst cursor
  else if cursor.number > segment.info.lastBlock.number then
    -- The block could have been reorged while the chain shrunk.
    match segment.findExtra cursor.number with
    | none => segment.afterLast cursor
    | some reorgs =>
      match reorgs[cursor.hash]? with
      | none => .ok .unknown
      | some target => .ok (.offlineReorg target)
  else do
    let block ← segment.blockAt cursor.number
    if block.hash == cursor.hash || cursor.hash.isZero then return .continue
    match block.reorgs[cursor.hash]? with
    | none => return .unknown
    | some target => return .offlineReorg target

end CanonicalChainSegment

end Starkstream
