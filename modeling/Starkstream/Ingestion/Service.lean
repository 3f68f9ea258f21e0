import Starkstream.Ingestion.State

/-! # The ingestion service

One definition per method of the service.  The answers of the node are
arguments, the writes to etcd and to the object store are planned.  Intervals,
the new heads stream itself and metrics are not modelled: which event comes next
is a choice of the environment.
-/

namespace Starkstream

abbrev Tick (α : Type) := Planned Write (Fault IngestionError) α

namespace IngestionService

open Planned (write lift)

def new (options : IngestionServiceOptions) (supportsPending : Bool) : IngestionService :=
  { options, supportsPending, chainBuilder := .empty, taskQueue := [] }

def pushIngestBlockByNumber (service : IngestionService) (blockNumber : Nat) : IngestionService :=
  { service with taskQueue := service.taskQueue ++ [.main blockNumber] }

def pushIngestPendingBlock (service : IngestionService) (lastIngested : Cursor) (generation : Nat) :
    IngestionService :=
  { service with taskQueue := service.taskQueue ++ [.pending lastIngested generation] }

def taskQueueClear (service : IngestionService) : IngestionService :=
  { service with taskQueue := [] }

/-- The loop that fills the queue up to the head; `slots` is how many more tasks
    the queue can hold. -/
def pushTasks (head : Nat) : Nat → IngestionService → Nat → IngestionService × Nat
  | 0, service, blockNumber => (service, blockNumber)
  | slots + 1, service, blockNumber =>
    if blockNumber + 1 > head then (service, blockNumber)
    else pushTasks head slots (service.pushIngestBlockByNumber (blockNumber + 1)) (blockNumber + 1)

/-- `while self.can_push_task()`: there is room for as many tasks as are missing. -/
def fillQueue (service : IngestionService) (head blockNumber : Nat) : IngestionService × Nat :=
  pushTasks head (service.options.maxConcurrentTasks - service.taskQueue.length) service blockNumber

/-- The recover state that every detected reorg leads to. -/
def recoverFrom (state : IngestState) : IngestionState :=
  .recover
    { finalized := state.finalized
      existingHead := state.head
      lastIngested := state.lastIngested }

def publishRecentSegment (world : World) (segment : CanonicalChainSegment) : Tick Unit := do
  let key := world.store.nextKey
  write (.putRecentSnapshot key segment)
  write (.putRecent
    { key, firstBlock := segment.info.firstBlock.number, lastBlock := segment.info.lastBlock.number })

def tickRefreshFinalized (state : IngestState) (answer : Answer Cursor) : Tick IngestionState := do
  let finalized ← lift (answer.changeContext .rpcRequest ["failed to refresh finalized cursor"])
  if state.finalized.number > finalized.number then
    lift (Outcome.fail .model
      ["the new finalized cursor is behind the old one", "this should never happen"])
  else if state.finalized = finalized then
    return .ingest state
  else do
    write (.putFinalized finalized.number)
    return .ingest { state with finalized }

def tickRefreshHead (service : IngestionService) (state : IngestState) (head : Cursor) :
    IngestionService × IngestionState :=
  if state.head = head then (service, .ingest state)
  -- Change of heads that are not ingested are not important.
  else if state.lastIngested.number ≥ head.number ∧ state.head.number > head.number then
    (service, recoverFrom state)
  else if state.lastIngested.number ≥ head.number ∧
      state.head.number = head.number ∧ state.head.hash ≠ head.hash then
    (service, recoverFrom state)
  else
    let (service, queuedBlockNumber) := service.fillQueue head.number state.queuedBlockNumber
    (service, .ingest { state with head, queuedBlockNumber })

def tickRefreshPending (service : IngestionService) (state : IngestState) :
    IngestionService × IngestionState :=
  if state.pendingBlockState.queued then (service, .ingest state)
  -- Only ingest pending blocks if they will be used.
  else if state.head ≠ state.lastIngested then (service, .ingest state)
  else
    (service.pushIngestPendingBlock state.lastIngested (state.pendingBlockState.generation + 1),
      .ingest { state with pendingBlockState := { state.pendingBlockState with queued := true } })

/-- The end of `tick_with_task_result`: push further tasks. -/
def resumeIngestion (service : IngestionService) (state : IngestState) (lastIngested : Cursor) :
    IngestionService × IngestionState :=
  let (service, queuedBlockNumber) := service.fillQueue state.head.number state.queuedBlockNumber
  (service, .ingest
    { state with lastIngested, queuedBlockNumber, pendingBlockState := .default })

def storeChainSegment (service : IngestionService) : Tick (IngestionService × Bool) := do
  let (taken, chainBuilder) := service.chainBuilder.takeSegment service.options.chainSegmentSize
  let segment ← lift (Outcome.changeContext .model [] taken)
  write (.putSegment segment)
  return ({ service with chainBuilder }, true)

/-- Store a segment once enough blocks follow it.  Returns whether it did. -/
def uploadChainSegment (service : IngestionService) : Tick (IngestionService × Bool) :=
  if service.chainBuilder.segmentSize ≥
      service.options.chainSegmentSize + service.options.chainSegmentUploadOffsetSize then
    service.storeChainSegment
  else
    return (service, false)

def publishCurrentSegment (world : World) (service : IngestionService) : Tick Unit := do
  let currentSegment ← lift (Outcome.changeContext .model [] service.chainBuilder.currentSegment)
  publishRecentSegment world currentSegment

/-- `tick_with_task_result` for a finished block that extends the chain. -/
def appendBlock (world : World) (service : IngestionService) (state : IngestState) (block : BlockInfo) :
    Tick (IngestionService × IngestionState) := do
  let (grown, chainBuilder) := service.chainBuilder.grow block
  lift (Outcome.changeContext .model [] grown)
  let (service, uploaded) ← uploadChainSegment { service with chainBuilder }
  -- Always upload recent segment if the block is non-finalized.
  if block.number ≥ state.finalized.number || uploaded then publishCurrentSegment world service
  return service.resumeIngestion state block.cursor

/-- `tick_with_task_result` for a finished block. -/
def ingestBlock (world : World) (service : IngestionService) (state : IngestState) (block : BlockInfo) :
    Tick (IngestionService × IngestionState) :=
  if service.chainBuilder.canGrow block then appendBlock world service state block
  else return (service, recoverFrom state)

def tickWithTaskResult (world : World) (service : IngestionService) (state : IngestState)
    (joinResult : Option IngestionJobJoinResult) : Tick (IngestionService × IngestionState) :=
  match joinResult with
  | none => return service.resumeIngestion state state.lastIngested
  | some .joinError => lift (Outcome.fail .rpcRequest ["failed to join ingestion task"])
  | some (.finished (.error report)) =>
    if report.isBlockNotFound then return (service, recoverFrom state)
    else lift (.error (.error ⟨.rpcRequest, report.attachments ++ ["failed to ingest block"]⟩))
  | some (.finished (.ok (.pending none))) =>
    return (service, .ingest
      { state with pendingBlockState := ⟨false, state.pendingBlockState.generation⟩ })
  | some (.finished (.ok (.pending (some block)))) => do
      write (.putPending block.generation)
      return (service, .ingest { state with pendingBlockState := ⟨false, block.generation⟩ })
  | some (.finished (.ok (.main block))) => ingestBlock world service state block

/-- What one iteration of the loop of `tick_recover` sees. -/
inductive RecoverPoll where
  /-- The cancellation token was cancelled. -/
  | cancelled
  | answer (block : Answer BlockInfo)

/-- What an iteration decides about its candidate. -/
inductive CandidateCheck where
  | cancelled
  | common
  | reorged
  deriving DecidableEq

def checkCandidate (poll : RecoverPoll) (candidate : Cursor) : Outcome IngestionError CandidateCheck :=
  match poll with
  | .cancelled => .ok .cancelled
  | .answer (.ok remote) => .ok (if remote.cursor = candidate then .common else .reorged)
  | .answer (.error report) =>
    -- This block doesn't exist anymore. This can happen in case of reorgs.
    if report.isBlockNotFound then .ok .reorged
    else .error (.error ⟨.rpcRequest, report.attachments ++
      ["failed to get block info while recovering", "block number: " ++ toString candidate.number]⟩)

/-- The loop of `tick_recover`, from the candidate `number`/`hash` down.  `none`
    when it gave up because of the cancellation token. -/
def findCommonBlock (canonicalChain : CanonicalChainSegment) (poll : Nat → RecoverPoll) :
    Nat → Hash → Outcome IngestionError (Option Cursor)
  | 0, hash => do
      match ← checkCandidate (poll 0) ⟨0, hash⟩ with
      | .cancelled => return none
      | .common => return some ⟨0, hash⟩
      | .reorged =>
        Outcome.fail .model
          ["failed to recover from genesis block", "hint: are you connecting to the correct chain?"]
  | below + 1, hash => do
      match ← checkCandidate (poll (below + 1)) ⟨below + 1, hash⟩ with
      | .cancelled => return none
      | .common => return some ⟨below + 1, hash⟩
      | .reorged => do
          let parent ← Outcome.changeContext .model
            ["failed to get parent block in reorg recovery",
              "current block number: " ++ toString (below + 1)] (canonicalChain.canonicalAt below)
          findCommonBlock canonicalChain poll below parent.hash

def recovered (state : RecoverState) (newHead : Cursor) : IngestionState :=
  .ingest
    { finalized := state.finalized
      head := state.existingHead
      queuedBlockNumber := newHead.number
      lastIngested := newHead
      pendingBlockState := .default }

/-- `tick_recover` up to the end of its loop. -/
def recoveryHead (service : IngestionService) (state : RecoverState) (poll : Nat → RecoverPoll) :
    Outcome IngestionError (Option Cursor) := do
  let canonicalChain ← Outcome.changeContext .model [] service.chainBuilder.currentSegment
  let lastIngested ← Outcome.changeContext .model [] (canonicalChain.canonicalAt state.lastIngested.number)
  if lastIngested ≠ state.lastIngested then
    Outcome.fail .model ["last ingested block does not match canonical chain"]
  else findCommonBlock canonicalChain poll state.lastIngested.number state.lastIngested.hash

/-- The queue is cleared and the builder shrunk; the service that is left behind also
    when `shrink` fails. -/
def shrinkTo (service : IngestionService) (newHead : Cursor) : Outcome IngestionError Unit × IngestionService :=
  let (shrunk, chainBuilder) := service.taskQueueClear.chainBuilder.shrink newHead
  ((Outcome.changeContext .model
      ["failed to shrink canonical chain after reorg recovery", "new head: " ++ newHead.display] shrunk).map fun _ => (),
    { service.taskQueueClear with chainBuilder })

def tickRecover (world : World) (service : IngestionService) (state : RecoverState)
    (poll : Nat → RecoverPoll) : Tick (IngestionService × IngestionState) := do
  match ← lift (service.recoveryHead state poll) with
  | none => return (service, .recover state)
  | some newHead => do
      let (shrunk, service) := service.shrinkTo newHead
      lift shrunk
      publishCurrentSegment world service
      return (service, recovered state newHead)

/-- How `publish_recent_segment` ends, by the answers of the object store and of etcd. -/
def publishAnswer (snapshot recent : Answer Unit) : Outcome IngestionError Unit := do
  snapshot.changeContext .canonicalChainStoreRequest []
  recent.changeContext .stateClientRequest []

/-- `tick_recover` as a call on the service: how it ends, and the service that it
    leaves behind, also when it fails.  What it writes is the recent segment. -/
def recoverCall (world : World) (service : IngestionService) (state : RecoverState) (poll : Nat → RecoverPoll)
    (snapshot recent : Answer Unit) : Outcome IngestionError IngestionState × IngestionService :=
  let tick := tickRecover world service state poll
  let ended : Outcome IngestionError IngestionState := do
    let (_, next) ← tick.result
    if !tick.writes.isEmpty then publishAnswer snapshot recent
    return next
  match service.recoveryHead state poll with
  | .ok (some newHead) => (ended, (service.shrinkTo newHead).2)
  | _ => (ended, service)

/-- Everything the outside world decides during `initialize`. -/
structure InitializeAnswers where
  head : Answer Cursor
  finalized : Answer Cursor
  blockInfo : Nat → Answer BlockInfo
  /-- `ingest_block_by_number`: fetch the block and upload it. -/
  ingestBlock : Nat → Answer BlockInfo
  /-- The clean-up after a migration is best-effort and may fail. -/
  deletesLegacyRecent : Bool
  deletesLegacyIngested : Bool

/-- Migrate the legacy single-object recent segment to the pointer-based layout,
    returning the migrated segment if one existed. -/
def migrateLegacyRecentSegment (world : World) (answers : InitializeAnswers) :
    Tick (Option CanonicalChainSegment) :=
  match world.store.legacyRecent with
  | none => return none
  | some segment => do
      publishRecentSegment world segment
      if answers.deletesLegacyRecent then write .deleteLegacyRecent
      if answers.deletesLegacyIngested then write .deleteLegacyIngested
      return some segment

/-- The published snapshot; `none` when there is no pointer or when it
    references an object that no longer exists. -/
def recentSegment (world : World) : Outcome IngestionError (Option CanonicalChainSegment) :=
  match world.etcd.recent with
  | none => .ok none
  | some pointer => world.getRecentSnapshot pointer

/-- The part of `get_starting_cursor` that follows a restored chain. -/
def checkLastBlock (lastBlock : Cursor) (answers : InitializeAnswers) :
    Outcome IngestionError IngestionStartAction :=
  match answers.blockInfo lastBlock.number with
  | .ok block =>
    if lastBlock ≠ block.cursor then .ok (.recover lastBlock) else .ok (.resume block.cursor)
  | .error report =>
    if report.isBlockNotFound then .ok (.recover lastBlock)
    else .error (.error
      ⟨.rpcRequest, report.attachments ++ ["failed to get starting cursor block info"]⟩)

def getStartingCursor (world : World) (service : IngestionService) (answers : InitializeAnswers) :
    Tick (IngestionService × IngestionStartAction) := do
  let recent ← lift (recentSegment world)
  let existing ← match recent with
    | some segment => pure (some segment)
    | none => migrateLegacyRecentSegment world answers
  match existing with
  | some segment => do
      let service := { service with chainBuilder := CanonicalChainBuilder.restoreFromSegment segment }
      let action ← lift (checkLastBlock segment.info.lastBlock answers)
      return (service, action)
  | none => do
      let startingBlock := service.options.overrideStartingBlock.getD 0
      write (.putStartingBlock startingBlock)
      return (service, .start startingBlock)

/-- The ingest state that a start and a resume lead to. -/
def ingestFrom (finalized head startingCursor : Cursor) : IngestionState :=
  .ingest
    { finalized
      head
      lastIngested := startingCursor
      queuedBlockNumber := startingCursor.number
      pendingBlockState := .default }

/-- What `initialize` does with the action. -/
def beginIngestion (world : World) (service : IngestionService) (answers : InitializeAnswers)
    (finalized head : Cursor) : IngestionStartAction → Tick (IngestionService × IngestionState)
  | .recover lastIngested => return (service, .recover { finalized, existingHead := head, lastIngested })
  | .start startingBlock => do
      -- Ingest genesis block here so that the rest of the body is the same
      -- as if we were resuming ingestion.
      let block ← lift ((answers.ingestBlock startingBlock).mapError .error)
      let (grown, chainBuilder) := service.chainBuilder.grow block
      lift (Outcome.changeContext .model [] grown)
      let service := { service with chainBuilder }
      publishCurrentSegment world service
      return (service, ingestFrom finalized head block.cursor)
  | .resume startingCursor => return (service, ingestFrom finalized head startingCursor)

/-- `initialize`. -/
def initializeService (world : World) (service : IngestionService) (answers : InitializeAnswers) :
    Tick (IngestionService × IngestionState) := do
  let head ← lift (answers.head.mapError .error)
  let finalized ← lift (answers.finalized.mapError .error)
  write (.putFinalized finalized.number)
  let (service, action) ← getStartingCursor world service answers
  beginIngestion world service answers finalized head action

end IngestionService

end Starkstream
