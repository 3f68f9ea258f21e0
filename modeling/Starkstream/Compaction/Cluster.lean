import Mathlib.Data.List.AList
import Starkstream.BlockStore.Keys
import Starkstream.ChainView.Waiting
import Starkstream.Compaction.GroupBuilder
import Starkstream.Ingestion.Stocked
import Starkstream.Lib.HighWater

/-! # Ingestion and compaction beside each other

Four services share etcd and the object store: ingestion uploads blocks and
publishes the chain, the segment service makes segments of the blocks, the group
service makes groups of the segments, and the prune service deletes the blocks of
groups.  A step is one operation of one of them, so that any of them can die
between two operations, and the others go on.

The keys of etcd that compaction writes are kept apart from those that ingestion
writes.  What a service reads of the chain view is part of its step: the view is
fed by a watch, and may be behind.
-/

namespace Starkstream

open IngestionService

/-! ## Objects -/

inductive StoredObject where
  | block (block : Block)
  | segment (data : SegmentData)
  | group (group : SegmentGroup)

/-- The objects under `block/`, `segment/` and `group/`, by key. -/
abbrev ObjectStore := AList fun _ : String => StoredObject

namespace ObjectStore

open BlockStore

variable (store : ObjectStore)

def getBlock (cursor : Cursor) : Option Block :=
  match store.lookup (formatBlockKey cursor) with
  | some (.block block) => some block
  | _ => none

def getSegment (firstBlock : Nat) (name : String) : Option SegmentData :=
  match store.lookup (formatSegmentKey firstBlock name) with
  | some (.segment data) => some data
  | _ => none

def getIndexSegment (firstBlock : Nat) : Option (Segment IndexGroupFragment) :=
  match store.getSegment firstBlock indexFragmentName with
  | some (.index segment) => some segment
  | _ => none

def getGroup (firstBlock : Nat) : Option SegmentGroup :=
  match store.lookup (formatGroupKey firstBlock) with
  | some (.group group) => some group
  | _ => none

def putBlock (cursor : Cursor) (block : Block) : ObjectStore := store.insert (formatBlockKey cursor) (.block block)

def putSegment (firstBlock : Nat) (segment : SerializedSegment) : ObjectStore :=
  store.insert (formatSegmentKey firstBlock segment.name) (.segment segment.data)

def putGroup (firstBlock : Nat) (group : SegmentGroup) : ObjectStore :=
  store.insert (formatGroupKey firstBlock) (.group group)

/-- What `delete_block_with_prefix` lists before it deletes. -/
def list (blockNumber : Nat) : List String := store.keys.filter (isListed blockNumber)

end ObjectStore

/-! ## Compaction -/

structure CompactionServiceOptions where
  segmentSize : Nat
  groupSize : Nat
  segmentPositive : 0 < segmentSize
  groupPositive : 0 < groupSize

def CompactionServiceOptions.blocksInGroup (options : CompactionServiceOptions) : Nat :=
  options.groupSize * options.segmentSize

/-- What the services have stored, beside the chain. -/
structure Archive where
  options : CompactionServiceOptions
  /-- The body fragments of the blocks of the chain. -/
  fragmentInfo : List FragmentInfo
  store : ObjectStore
  /-- History: the blocks that were uploaded. -/
  uploads : List Cursor
  segmented : HighWater
  grouped : HighWater
  pruned : Option Nat

namespace Archive

def fresh (options : CompactionServiceOptions) (fragmentInfo : List FragmentInfo) : Archive :=
  { options, fragmentInfo, store := ∅, uploads := [], segmented := .empty, grouped := .empty, pruned := none }

variable (archive : Archive)

def upload (cursor : Cursor) (block : Block) : Archive :=
  { archive with store := archive.store.putBlock cursor block, uploads := archive.uploads ++ [cursor] }

def putSegment (first : Cursor) (segment : SerializedSegment) : Archive :=
  { archive with store := archive.store.putSegment first.number segment }

def putSegmented (block : Nat) : Archive := { archive with segmented := archive.segmented.putIfHigher block }

def putGroup (first : Cursor) (group : SegmentGroup) : Archive :=
  { archive with store := archive.store.putGroup first.number group }

def putGrouped (block : Nat) : Archive := { archive with grouped := archive.grouped.putIfHigher block }

def putPruned (block : Nat) : Archive := { archive with pruned := some block }

def delete (key : String) : Archive := { archive with store := archive.store.erase key }

end Archive

/-- `SegmentService`.  The downloads of `compact_segment` come out of their queue in
    order; here they are made one after the other. -/
inductive SegmentStage where
  | deciding (phase : SegmentPhase)
  /-- `get_block_and_cursor` for `current`. -/
  | fetching (first : Cursor) (blocks : List (Cursor × Block)) (current : Cursor)
  /-- `get_next_cursor` after `current`. -/
  | advancing (first : Cursor) (blocks : List (Cursor × Block)) (current : Cursor)
  /-- `put_segment` for the objects left, and `put_segmented` after the last. -/
  | uploading (first last : Cursor) (left : List SerializedSegment)

def lastAdded (first : Cursor) (blocks : List (Cursor × Block)) : Cursor := (blocks.getLast?.map (·.1)).getD first

/-- The next operation of the service, with the chain view that it sees. -/
def SegmentStage.step (view : ChainView) (archive : Archive) : SegmentStage → Option (Archive × SegmentStage)
  | .deciding (.compacting first) => some (archive, .fetching first [] first)
  | .deciding phase => (phase.proceed view archive.options.segmentSize).map fun next => (archive, .deciding next)
  | .fetching first blocks current =>
    match archive.store.getBlock current with
    | some block => some (archive, .advancing first (blocks ++ [(current, block)]) current)
    | none => some (archive, .deciding .ended)
  | .advancing first blocks current =>
    match followingCursor view current with
    | none => some (archive, .deciding .ended)
    | some next =>
      if blocks.length < archive.options.segmentSize then some (archive, .fetching first blocks next)
      else
        match SegmentBuilder.build {} first blocks with
        | .ok (segments, _) => some (archive, .uploading first (lastAdded first blocks) segments)
        | .error _ => some (archive, .deciding .ended)
  | .uploading first last (segment :: left) => some (archive.putSegment first segment, .uploading first last left)
  | .uploading _ last [] => some (archive.putSegmented last.number, .deciding .start)

/-- `SegmentGroupService`. -/
inductive GroupStage where
  | deciding (phase : GroupPhase)
  /-- `get_index_segment_and_cursor` for the next segment, and `put_group` after the last. -/
  | fetching (first : Cursor) (segments : List (Segment IndexGroupFragment))
  /-- `put_grouped`. -/
  | recording (first : Cursor)

def GroupStage.step (view : ChainView) (archive : Archive) : GroupStage → Option (Archive × GroupStage)
  | .deciding (.compacting first) => some (archive, .fetching first [])
  | .deciding phase => (phase.proceed view archive.options.blocksInGroup).map fun next => (archive, .deciding next)
  | .fetching first segments =>
    if segments.length < archive.options.groupSize then
      match archive.store.getIndexSegment (first.number + segments.length * archive.options.segmentSize) with
      | some segment => some (archive, .fetching first (segments ++ [segment]))
      | none => some (archive, .deciding .ended)
    else
      match SegmentGroupBuilder.group archive.options.segmentSize segments with
      | .ok group => some (archive.putGroup first group, .recording first)
      | .error _ => some (archive, .deciding .ended)
  | .recording first =>
    some (archive.putGrouped (first.number + archive.options.blocksInGroup - 1), .deciding .start)

/-- `PruneService::prune_loop`. -/
inductive PruneStage where
  /-- `get_grouped`. -/
  | start
  /-- `get_pruned`. -/
  | gotGrouped (grouped : Nat)
  /-- `get_starting_cursor`. -/
  | noPruned (grouped : Nat)
  /-- The head of the `while` loop. -/
  | loop (grouped current : Nat)
  /-- The head of the `for` loop, with the number of rounds left. -/
  | round (grouped current left : Nat)
  /-- The deletes of `delete_block_with_prefix`. -/
  | deleting (grouped current left : Nat) (keys : List String)

def PruneStage.step (view : ChainView) (archive : Archive) : PruneStage → Archive × PruneStage
  | .start => (archive, archive.grouped.value.elim .start .gotGrouped)
  | .gotGrouped grouped => (archive, archive.pruned.elim (.noPruned grouped) (.loop grouped))
  | .noPruned grouped =>
    (archive, view.getStartingCursor.toOption.elim .start fun genesis => .loop grouped genesis.number)
  | .loop grouped current =>
    (archive, if current < grouped then .round grouped current archive.options.segmentSize else .start)
  | .round grouped current left =>
    if left = 0 ∨ grouped < current then (archive.putPruned (current - 1), .loop grouped current)
    else (archive, .deleting grouped current left (archive.store.list current))
  | .deleting grouped current left (key :: keys) => (archive.delete key, .deleting grouped current left keys)
  | .deleting grouped current left [] => (archive, .round grouped (current + 1) (left - 1))

/-! ## All services -/

/-- An event of ingestion that is under way. -/
structure RunningEvent where
  event : Event
  tick : Tick (IngestionService × IngestionState)
  /-- The number of its writes that are carried out. -/
  done : Nat

structure Cluster where
  /-- Ingestion before the event that is under way. -/
  system : System
  running : Option RunningEvent
  archive : Archive
  segment : SegmentStage
  group : GroupStage
  prune : PruneStage

inductive ClusterInput where
  /-- A task of ingestion uploads a block that it fetched. -/
  | upload (cursor : Cursor) (block : Block)
  | ingest (event : Event)
  | write
  | complete
  | crash
  | segment (view : ChainView)
  /-- The segment service begins its loop again: it was woken up, or it failed and
      was restarted. -/
  | resetSegment
  | group (view : ChainView)
  | resetGroup
  | prune (view : ChainView)
  | resetPrune

/-- Writes of the chain store, and of the pointer to it. -/
def Write.ofChain : Write → Bool
  | .putSegment _ | .putRecentSnapshot _ _ | .putRecent _ => true
  | _ => false

namespace Cluster

def fresh (options : CompactionServiceOptions) (fragmentInfo : List FragmentInfo)
    (ingestion : IngestionServiceOptions) (supportsPending : Bool) : Cluster where
  system := .fresh ingestion supportsPending
  running := none
  archive := .fresh options fragmentInfo
  segment := .deciding .start
  group := .deciding .start
  prune := .start

variable (cluster : Cluster)

/-- What ingestion has stored so far, also in the middle of an event. -/
def visible : System :=
  match cluster.running with
  | none => cluster.system
  | some running => cluster.system.finish (some running.done) running.tick

/-- `ingest_block_by_number` returns the block after it was uploaded. -/
def offeredUploaded (event : Event) : Bool :=
  (event.offered cluster.system.options).all fun block => block.cursor ∈ cluster.archive.uploads

def ingest (event : Event) : Option Cluster :=
  match cluster.running with
  | some _ => none
  | none => (cluster.system.plan event).map fun tick => { cluster with running := some ⟨event, tick, 0⟩ }

/-- The block is uploaded before anything is stored that refers to it. -/
def write : Option Cluster :=
  match cluster.running with
  | none => none
  | some running =>
    match running.tick.writes[running.done]? with
    | none => none
    | some effect =>
      if effect.ofChain = true ∧ cluster.offeredUploaded running.event = false then none
      else some { cluster with running := some { running with done := running.done + 1 } }

def complete : Option Cluster :=
  match cluster.running with
  | none => none
  | some running =>
    if running.done = running.tick.writes.length ∧ cluster.offeredUploaded running.event = true then
      some { cluster with system := cluster.system.finish none running.tick, running := none }
    else none

def crash : Cluster := { cluster with system := { cluster.visible with process := none }, running := none }

def step : ClusterInput → Option Cluster
  | .upload cursor block =>
    if block.Provides cluster.archive.fragmentInfo then
      some { cluster with archive := cluster.archive.upload cursor block }
    else none
  | .ingest event => cluster.ingest event
  | .write => cluster.write
  | .complete => cluster.complete
  | .crash => some cluster.crash
  | .segment view =>
    (cluster.segment.step view cluster.archive).map fun (archive, segment) => { cluster with archive, segment }
  | .resetSegment => some { cluster with segment := .deciding .start }
  | .group view =>
    (cluster.group.step view cluster.archive).map fun (archive, group) => { cluster with archive, group }
  | .resetGroup => some { cluster with group := .deciding .start }
  | .prune view =>
    let (archive, prune) := cluster.prune.step view cluster.archive
    some { cluster with archive, prune }
  | .resetPrune => some { cluster with prune := .start }

end Cluster

end Starkstream
