import Starkstream.Chain.Split

/-! # The chain that readers see

A reader holds the recent snapshot and fetches older parts of the chain from the
chain store, by a name that it computes from the block number.  What the store
answers is a function, so that a reader with a cache is one more such function.
Subtracting below the starting block and dividing by a segment size of zero are
panics.
-/

namespace Starkstream

structure ChainViewError where
  deriving DecidableEq

structure ChainStoreError where
  deriving DecidableEq

inductive CanonicalCursor where
  | beforeAvailable (cursor : Cursor)
  | afterAvailable (cursor : Cursor)
  | canonical (cursor : Cursor)
  deriving DecidableEq

/-- Result of validating a cursor. -/
inductive ValidatedCursor where
  | valid (cursor : Cursor)
  /-- The cursor is invalid. The cursors returned are the canonical cursor and
      its siblings. -/
  | invalid (canonical : Cursor) (siblings : List Cursor)
  deriving DecidableEq

inductive NextCursor where
  | continue (cursor : Cursor) (isHead : Bool)
  | invalidate (cursor : Cursor)
  | atHead
  deriving DecidableEq

/-- `ChainStore::get`: the segment stored under the number of its first block. -/
abbrev ChainStoreGet := Nat → Except (Report ChainStoreError) (Option CanonicalChainSegment)

structure FullCanonicalChain where
  store : ChainStoreGet
  startingBlock : Nat
  chainSegmentSize : Nat
  recent : CanonicalChainSegment

def chainSegmentStart (blockNumber startingBlock chainSegmentSize : Nat) : Outcome ChainViewError Nat :=
  if blockNumber < startingBlock ∨ chainSegmentSize = 0 then .error .panic
  else .ok ((blockNumber - startingBlock) / chainSegmentSize * chainSegmentSize + startingBlock)

namespace FullCanonicalChain

def getChainSegment (chain : FullCanonicalChain) (blockNumber : Nat) :
    Outcome ChainViewError CanonicalChainSegment :=
  if chain.recent.info.firstBlock.number ≤ blockNumber then .ok chain.recent
  else do
    let start ← chainSegmentStart blockNumber chain.startingBlock chain.chainSegmentSize
    match chain.store start with
    | .ok (some segment) => .ok segment
    | .ok none =>
      Outcome.fail {}
        ["chain segment not found", "block number: " ++ toString blockNumber,
          "starting block: " ++ toString start]
    | .error report => .error (.error ⟨{}, report.attachments ++ ["failed to get chain segment"]⟩)

def getCanonicalImpl (chain : FullCanonicalChain) (blockNumber : Nat) : Outcome ChainViewError Cursor := do
  let segment ← chain.getChainSegment blockNumber
  Outcome.changeContext {} ["failed to get canonical block"] (segment.canonicalAt blockNumber)

def getNextCursor (chain : FullCanonicalChain) : Option Cursor → Outcome ChainViewError NextCursor
  | none => do
      let firstAvailable ← chain.getCanonicalImpl chain.startingBlock
      return .continue firstAvailable false
  | some cursor => do
      let segment ← chain.getChainSegment cursor.number
      match ← Outcome.changeContext {} [] (segment.reconnect cursor) with
      | .continue =>
        if cursor.number = chain.recent.info.lastBlock.number then return .atHead
        else do
          let nextAvailable ← chain.getCanonicalImpl (cursor.number + 1)
          return .continue nextAvailable (nextAvailable.number = chain.recent.info.lastBlock.number)
      | .offlineReorg target => return .invalidate target
      | .unknown => Outcome.fail {} ["unknown cursor"]

def validateCursor (chain : FullCanonicalChain) (cursor : Cursor) : Outcome ChainViewError ValidatedCursor := do
  let segment ← chain.getChainSegment cursor.number
  let canonical ← Outcome.changeContext {} [] (segment.canonicalAt cursor.number)
  if canonical.isEquivalent cursor then return .valid canonical
  else do
    -- Iterate over the siblings because the user may have provided a malformed
    -- cursor that was reorged.
    let siblings ← Outcome.changeContext {} [] (segment.siblings cursor)
    match siblings.find? (·.isEquivalent cursor) with
    | some sibling => return .valid sibling
    | none => return .invalid canonical siblings

def getHead (chain : FullCanonicalChain) : Cursor := chain.recent.info.lastBlock

def getCanonical (chain : FullCanonicalChain) (blockNumber : Nat) : Outcome ChainViewError CanonicalCursor :=
  if blockNumber > chain.recent.info.lastBlock.number then .ok (.afterAvailable chain.recent.info.lastBlock)
  else if blockNumber < chain.startingBlock then do
    let firstAvailable ← chain.getCanonicalImpl chain.startingBlock
    return .beforeAvailable firstAvailable
  else do
    let cursor ← chain.getCanonicalImpl blockNumber
    return .canonical cursor

/-- The two readers find, at a number, segments that agree there. -/
def SameAt (left right : FullCanonicalChain) (number : Nat) : Prop :=
  ∃ leftSegment rightSegment, left.getChainSegment number = .ok leftSegment ∧
    right.getChainSegment number = .ok rightSegment ∧ leftSegment.AgreesAt rightSegment number

namespace SameAt

variable {left right : FullCanonicalChain} {number : Nat}

theorem getCanonicalImpl (same : SameAt left right number) :
    left.getCanonicalImpl number = right.getCanonicalImpl number := by
  obtain ⟨_, _, leftFound, rightFound, agree⟩ := same
  simp only [FullCanonicalChain.getCanonicalImpl, leftFound, rightFound, bind, Except.bind,
    agree.canonicalAt]

theorem getCanonical (same : SameAt left right number)
    (heads : left.recent.info.lastBlock = right.recent.info.lastBlock)
    (lower : left.startingBlock ≤ number) (starts : left.startingBlock = right.startingBlock) :
    left.getCanonical number = right.getCanonical number := by
  simp only [FullCanonicalChain.getCanonical, heads, ← starts, if_neg (not_lt.mpr lower),
    same.getCanonicalImpl]

theorem validateCursor {cursor : Cursor} (same : SameAt left right cursor.number) :
    left.validateCursor cursor = right.validateCursor cursor := by
  obtain ⟨_, _, leftFound, rightFound, agree⟩ := same
  simp only [FullCanonicalChain.validateCursor, leftFound, rightFound, bind, Except.bind,
    agree.canonicalAt, agree.siblings]

/-- The next cursor needs the following block as well, unless this is the head. -/
theorem getNextCursor {cursor : Cursor} (same : SameAt left right cursor.number)
    (heads : left.recent.info.lastBlock = right.recent.info.lastBlock)
    (next : cursor.number ≠ left.recent.info.lastBlock.number → SameAt left right (cursor.number + 1)) :
    left.getNextCursor (some cursor) = right.getNextCursor (some cursor) := by
  obtain ⟨_, _, leftFound, rightFound, agree⟩ := same
  simp only [FullCanonicalChain.getNextCursor, leftFound, rightFound, bind, Except.bind,
    agree.reconnect, ← heads]
  by_cases atHead : cursor.number = left.recent.info.lastBlock.number
  · simp only [atHead, if_true]
  · simp only [if_neg atHead, (next atHead).getCanonicalImpl]

end SameAt

end FullCanonicalChain

end Starkstream
