import Starkstream.Chain.Segment
import Starkstream.Lib.Planned

/-! # State of the ingestion service and of the stores it writes to

The service keeps the canonical chain builder and the queue of running tasks in
memory.  Everything else it does is a write to etcd or to the object store.
Writes are data (`Write`), so a service that dies between two writes has applied
a prefix of them.
-/

namespace Starkstream

open Std (ExtTreeMap)

inductive IngestionError where
  | blockNotFound
  | rpcRequest
  | canonicalChainStoreRequest
  | blockStoreRequest
  | stateClientRequest
  | lockKeepAlive
  | options
  | badHash
  | model
  | indexing
  deriving DecidableEq

/-- The answer to a request to the node: it never panics here. -/
abbrev Answer (α : Type) := Except (Report IngestionError) α

def Report.isBlockNotFound (report : Report IngestionError) : Bool :=
  report.context == .blockNotFound

/-- `change_context` on the answer to a request. -/
def Answer.changeContext {α : Type} (context : IngestionError) (attachments : List String)
    (answer : Answer α) : Outcome IngestionError α :=
  match answer with
  | .ok value => .ok value
  | .error report => .error (.error ⟨context, report.attachments ++ attachments⟩)

structure RecentSegmentPointer where
  /-- The object key.  The source builds it from a timestamp and a counter that
      never repeat; here it is the number of snapshots written before. -/
  key : Nat
  firstBlock : Nat
  lastBlock : Nat
  deriving DecidableEq

/-- The keys under `ingestion/`. -/
structure Etcd where
  startingBlock : Option Nat
  finalized : Option Nat
  segmented : Option Nat
  grouped : Option Nat
  recent : Option RecentSegmentPointer
  pending : Option Nat
  legacyIngested : Option String

/-- The objects under `canon/`. -/
structure ChainStore where
  segments : ExtTreeMap Nat CanonicalChainSegment
  snapshots : ExtTreeMap Nat CanonicalChainSegment
  nextKey : Nat
  legacyRecent : Option CanonicalChainSegment

structure World where
  etcd : Etcd
  store : ChainStore

namespace World

/-- A deployment in which nothing was ever written. -/
def fresh : World :=
  { etcd := ⟨none, none, none, none, none, none, none⟩
    store := ⟨∅, ∅, 0, none⟩ }

end World

/-- One request of the ingestion service that changes etcd or the object store. -/
inductive Write where
  | putStartingBlock (block : Nat)
  | putFinalized (block : Nat)
  | putPending (generation : Nat)
  /-- `put_recent`: one transaction that also deletes the pending generation. -/
  | putRecent (pointer : RecentSegmentPointer)
  | deleteLegacyIngested
  /-- `ChainStore::put`, under the number of the first block. -/
  | putSegment (segment : CanonicalChainSegment)
  | putRecentSnapshot (key : Nat) (segment : CanonicalChainSegment)
  | deleteLegacyRecent

namespace World

def apply (world : World) : Write → World
  | .putStartingBlock block => { world with etcd := { world.etcd with startingBlock := some block } }
  | .putFinalized block => { world with etcd := { world.etcd with finalized := some block } }
  | .putPending generation => { world with etcd := { world.etcd with pending := some generation } }
  | .putRecent pointer =>
    { world with etcd := { world.etcd with recent := some pointer, pending := none } }
  | .deleteLegacyIngested => { world with etcd := { world.etcd with legacyIngested := none } }
  | .putSegment segment =>
    { world with
      store := { world.store with
        segments := world.store.segments.insert segment.info.firstBlock.number segment } }
  | .putRecentSnapshot key segment =>
    { world with
      store := { world.store with
        snapshots := world.store.snapshots.insert key segment
        nextKey := key + 1 } }
  | .deleteLegacyRecent => { world with store := { world.store with legacyRecent := none } }

def applyAll (world : World) (writes : List Write) : World := writes.foldl apply world

@[simp] theorem applyAll_nil (world : World) : world.applyAll [] = world := rfl

@[simp] theorem applyAll_cons (world : World) (effect : Write) (rest : List Write) :
    world.applyAll (effect :: rest) = (world.apply effect).applyAll rest := rfl

def publishedLast (world : World) : Option Cursor :=
  world.etcd.recent.bind fun pointer => world.store.snapshots[pointer.key]?.map (·.info.lastBlock)

/-- `get_recent_snapshot`: a missing object is `None`, one whose range is not
    the range of the pointer is an error. -/
def getRecentSnapshot (world : World) (pointer : RecentSegmentPointer) :
    Outcome IngestionError (Option CanonicalChainSegment) :=
  let failed {α : Type} (attachments : List String) : Outcome IngestionError α :=
    Outcome.fail .canonicalChainStoreRequest
      (attachments ++ ["failed to get recent canonical chain snapshot"])
  if pointer.firstBlock > pointer.lastBlock then
    failed
      ["recent snapshot pointer has an invalid block range", "key: " ++ toString pointer.key,
        "first block: " ++ toString pointer.firstBlock, "last block: " ++ toString pointer.lastBlock]
  else
    match world.store.snapshots[pointer.key]? with
    | none => .ok none
    | some segment =>
      if segment.info.firstBlock.number ≠ pointer.firstBlock ∨
          segment.info.lastBlock.number ≠ pointer.lastBlock then
        failed
          ["recent snapshot pointer does not match segment range", "key: " ++ toString pointer.key,
            "pointer first block: " ++ toString pointer.firstBlock,
            "pointer last block: " ++ toString pointer.lastBlock,
            "segment first block: " ++ toString segment.info.firstBlock.number,
            "segment last block: " ++ toString segment.info.lastBlock.number]
      else .ok (some segment)

end World

structure IngestionServiceOptions where
  maxConcurrentTasks : Nat
  /-- How many blocks in a single chain segment. -/
  chainSegmentSize : Nat
  /-- How many finalized blocks to wait before uploading a chain segment. -/
  chainSegmentUploadOffsetSize : Nat
  overrideStartingBlock : Option Nat
  deriving DecidableEq

def IngestionServiceOptions.default : IngestionServiceOptions :=
  { maxConcurrentTasks := 100
    chainSegmentSize := 10000
    chainSegmentUploadOffsetSize := 100
    overrideStartingBlock := none }

/-- What a finished task returns. -/
inductive IngestionTask where
  | main (block : BlockInfo)
  | pending (block : Option PendingBlockInfo)
  deriving DecidableEq

/-- A task in the queue: what it was asked to ingest. -/
inductive QueuedTask where
  | main (blockNumber : Nat)
  | pending (parent : Cursor) (generation : Nat)
  deriving DecidableEq

/-- The outcome of joining a task. -/
inductive IngestionJobJoinResult where
  | joinError
  | finished (result : Answer IngestionTask)

structure IngestionService where
  options : IngestionServiceOptions
  supportsPending : Bool
  chainBuilder : CanonicalChainBuilder
  taskQueue : List QueuedTask

structure PendingBlockState where
  queued : Bool
  generation : Nat
  deriving DecidableEq

def PendingBlockState.default : PendingBlockState := ⟨false, 0⟩

structure IngestState where
  finalized : Cursor
  head : Cursor
  lastIngested : Cursor
  queuedBlockNumber : Nat
  pendingBlockState : PendingBlockState
  deriving DecidableEq

structure RecoverState where
  finalized : Cursor
  existingHead : Cursor
  lastIngested : Cursor
  deriving DecidableEq

inductive IngestionState where
  | ingest (state : IngestState)
  | recover (state : RecoverState)
  deriving DecidableEq

/-- What action to take when starting ingestion. -/
inductive IngestionStartAction where
  | resume (cursor : Cursor)
  | start (block : Nat)
  | recover (cursor : Cursor)

end Starkstream
