import Starkstream.Ingestion.Service
import Starkstream.Chain.Split

/-! # What each tick does

One lemma per method: all the ways it can end, with the writes it plans.  The
methods that touch the chain are described on a well formed builder, where the
internal errors of the builder that the service merely forwards do not occur.
-/

namespace Starkstream

open CanonicalChainBuilder

namespace IngestionService

open Planned (write lift)

theorem pushTasks_eq (head : Nat) (slots : Nat) (service : IngestionService) (blockNumber : Nat) :
    pushTasks head slots service blockNumber =
      ({ service with
          taskQueue := service.taskQueue ++
            (List.range' (blockNumber + 1) (min slots (head - blockNumber))).map .main },
        blockNumber + min slots (head - blockNumber)) := by
  induction slots generalizing service blockNumber with
  | zero => simp [pushTasks]
  | succ slots ih =>
    simp only [pushTasks]
    split_ifs with done
    · have none : head - blockNumber = 0 := by omega
      simp [none]
    · have count : min (slots + 1) (head - blockNumber) = min slots (head - (blockNumber + 1)) + 1 := by
        omega
      rw [ih, count, List.range'_succ]
      simp only [pushIngestBlockByNumber, List.map_cons, List.append_assoc, List.singleton_append]
      congr 1
      omega

def pushCount (service : IngestionService) (head blockNumber : Nat) : Nat :=
  min (service.options.maxConcurrentTasks - service.taskQueue.length) (head - blockNumber)

def pushed (service : IngestionService) (head blockNumber : Nat) : IngestionService :=
  { service with
    taskQueue := service.taskQueue ++
      (List.range' (blockNumber + 1) (service.pushCount head blockNumber)).map .main }

theorem fillQueue_eq (service : IngestionService) (head blockNumber : Nat) :
    service.fillQueue head blockNumber =
      (service.pushed head blockNumber, blockNumber + service.pushCount head blockNumber) :=
  pushTasks_eq head _ service blockNumber

def publishWrites (world : World) (segment : CanonicalChainSegment) : List Write :=
  [.putRecentSnapshot world.store.nextKey segment,
    .putRecent ⟨world.store.nextKey, segment.info.firstBlock.number, segment.info.lastBlock.number⟩]

theorem tickRefreshFinalized_cases (state : IngestState) (answer : Answer Cursor) :
    (∃ fault, ((∃ report, fault = .error ⟨.rpcRequest, report⟩) ∨
        ∃ finalized, answer = .ok finalized ∧ finalized.number < state.finalized.number) ∧
      tickRefreshFinalized state answer = ⟨[], .error fault⟩) ∨
    (answer = .ok state.finalized ∧ tickRefreshFinalized state answer = ⟨[], .ok (.ingest state)⟩) ∨
    (∃ finalized, answer = .ok finalized ∧ state.finalized.number ≤ finalized.number ∧
      tickRefreshFinalized state answer =
        ⟨[.putFinalized finalized.number], .ok (.ingest { state with finalized })⟩) := by
  cases answer with
  | error => exact .inl ⟨_, .inl ⟨_, rfl⟩, rfl⟩
  | ok finalized =>
    simp only [tickRefreshFinalized, Answer.changeContext, Planned.lift_ok_bind]
    split_ifs with behind same
    · exact .inl ⟨_, .inr ⟨finalized, rfl, behind⟩, rfl⟩
    · exact .inr (.inl ⟨same ▸ rfl, rfl⟩)
    · exact .inr (.inr ⟨finalized, rfl, not_lt.mp behind, rfl⟩)

section
variable (service : IngestionService) (state : IngestState)
include service state

theorem tickRefreshHead_cases (head : Cursor) :
    (state.head = head ∧ tickRefreshHead service state head = (service, .ingest state)) ∨
    (state.head ≠ head ∧ head.number ≤ state.lastIngested.number ∧ head.number ≤ state.head.number ∧
      tickRefreshHead service state head = (service, recoverFrom state)) ∨
    (state.head ≠ head ∧
      (state.lastIngested.number < head.number ∨ state.head.number < head.number) ∧
      tickRefreshHead service state head =
        (service.pushed head.number state.queuedBlockNumber, .ingest
          { state with
            head
            queuedBlockNumber :=
              state.queuedBlockNumber + service.pushCount head.number state.queuedBlockNumber })) := by
  unfold tickRefreshHead
  by_cases same : state.head = head
  · exact .inl ⟨same, if_pos same⟩
  rw [if_neg same]
  by_cases lower : state.lastIngested.number ≥ head.number ∧ state.head.number > head.number
  · exact .inr (.inl ⟨same, lower.1, lower.2.le, if_pos lower⟩)
  rw [if_neg lower]
  by_cases replaced : state.lastIngested.number ≥ head.number ∧
      state.head.number = head.number ∧ state.head.hash ≠ head.hash
  · exact .inr (.inl ⟨same, replaced.1, replaced.2.1.ge, if_pos replaced⟩)
  · rw [if_neg replaced, fillQueue_eq]
    refine .inr (.inr ⟨same, ?_, rfl⟩)
    by_contra neither
    -- then the numbers are equal, and so would be the cursors
    have numbers : state.head.number = head.number := by omega
    have hashes : state.head.hash = head.hash := by
      by_contra different
      exact replaced ⟨by omega, numbers, different⟩
    exact same (Cursor.ext numbers hashes)

theorem tickRefreshPending_cases :
    tickRefreshPending service state = (service, .ingest state) ∨
    (state.head = state.lastIngested ∧ state.pendingBlockState.queued = false ∧
      tickRefreshPending service state =
        (service.pushIngestPendingBlock state.lastIngested (state.pendingBlockState.generation + 1),
          .ingest { state with pendingBlockState := { state.pendingBlockState with queued := true } })) := by
  unfold tickRefreshPending
  split_ifs with queued behind
  · exact .inl rfl
  · exact .inl rfl
  · exact .inr ⟨not_not.mp behind, by simpa using queued, rfl⟩

theorem resumeIngestion_eq (lastIngested : Cursor) :
    service.resumeIngestion state lastIngested =
      (service.pushed state.head.number state.queuedBlockNumber, .ingest
        { state with
          lastIngested
          queuedBlockNumber :=
            state.queuedBlockNumber + service.pushCount state.head.number state.queuedBlockNumber
          pendingBlockState := .default }) := by
  rw [resumeIngestion, fillQueue_eq]

end

def withChain (service : IngestionService) (state : Building) : IngestionService :=
  { service with chainBuilder := .building state }

/-- The chain after the upload of a segment. -/
structure Uploads (options : IngestionServiceOptions) (chain : Building) (lastHash nextHash : Hash) : Prop where
  enough : options.chainSegmentSize + options.chainSegmentUploadOffsetSize ≤ chain.canonical.length
  positive : 0 < options.chainSegmentSize
  inside : options.chainSegmentSize < chain.canonical.length
  nextAt : chain.canonical[options.chainSegmentSize]? = some nextHash

variable {chain : Building}

theorem uploadChainSegment_cases (service : IngestionService) (wf : chain.WellFormed) :
    (chain.canonical.length <
        service.options.chainSegmentSize + service.options.chainSegmentUploadOffsetSize ∧
      uploadChainSegment (service.withChain chain) = ⟨[], .ok (service.withChain chain, false)⟩) ∨
    (∃ fault, (service.options.chainSegmentSize = 0 ∨ service.options.chainSegmentUploadOffsetSize = 0) ∧
      uploadChainSegment (service.withChain chain) = ⟨[], .error fault⟩) ∨
    (∃ lastHash nextHash, Uploads service.options chain lastHash nextHash ∧
      uploadChainSegment (service.withChain chain) =
        ⟨[.putSegment (chain.takenSegment service.options.chainSegmentSize lastHash)],
          .ok (service.withChain (chain.remaining service.options.chainSegmentSize lastHash nextHash), true)⟩) := by
  by_cases enough : chain.canonical.length ≥
      service.options.chainSegmentSize + service.options.chainSegmentUploadOffsetSize
  · have stored : uploadChainSegment (service.withChain chain) = (service.withChain chain).storeChainSegment :=
      if_pos enough
    rw [stored]
    unfold storeChainSegment
    simp only [withChain]
    rcases takeSegment_cases wf service.options.chainSegmentSize with
      ⟨_, _, failed⟩ | ⟨zero, panicked⟩ | ⟨positive, inside, lastHash, nextHash, nextAt, done⟩
    · exact .inr (.inl ⟨_, .inr (by omega), by rw [failed]; rfl⟩)
    · exact .inr (.inl ⟨_, .inl zero, by rw [panicked]; rfl⟩)
    · exact .inr (.inr ⟨lastHash, nextHash, ⟨enough, positive, inside, nextAt⟩, by rw [done]; rfl⟩)
  · exact .inl ⟨not_le.mp enough, if_neg enough⟩

/-- The writes of a block that was appended without an upload: none for a block
    below the finalized one, else the new snapshot. -/
def appendWrites (world : World) (state : IngestState) (block : BlockInfo) (chain : Building) : List Write :=
  if block.number ≥ state.finalized.number then publishWrites world chain.snapshot else []

section
variable (world : World) (service : IngestionService) (state : IngestState)
include world service state

theorem appendBlock_eq {block} (builder : service.chainBuilder = .building chain)
    (allowed : canGrow (.building chain) block = true) :
    appendBlock world service state block =
      (uploadChainSegment (service.withChain (chain.grown block)) >>= fun uploaded =>
        if block.number ≥ state.finalized.number || uploaded.2 then
          publishCurrentSegment world uploaded.1 >>= fun _ =>
            pure (uploaded.1.resumeIngestion state block.cursor)
        else pure (uploaded.1.resumeIngestion state block.cursor)) := by
  rw [appendBlock, builder, grow_allowed allowed]
  rfl

theorem ingestBlock_of_short {block} (builder : service.chainBuilder = .building chain)
    (allowed : canGrow (.building chain) block = true) (short : (chain.grown block).canonical.length <
      service.options.chainSegmentSize + service.options.chainSegmentUploadOffsetSize) :
    ingestBlock world service state block =
      ⟨appendWrites world state block (chain.grown block),
        .ok ((service.withChain (chain.grown block)).resumeIngestion state block.cursor)⟩ := by
  have notUploaded : uploadChainSegment (service.withChain (chain.grown block)) =
      pure (service.withChain (chain.grown block), false) := if_neg (not_le.mpr short)
  rw [ingestBlock, builder, if_pos allowed, appendBlock_eq world service state builder allowed, notUploaded,
    appendWrites]
  by_cases fresh : block.number ≥ state.finalized.number
  · rw [if_pos fresh]
    simp only [fresh, decide_true, Bool.true_or]
    rfl
  · rw [if_neg fresh]
    simp only [fresh, decide_false]
    rfl

theorem ingestBlock_cases (block : BlockInfo) (builder : service.chainBuilder = .building chain)
    (wf : (chain.grown block).WellFormed) :
    (canGrow (.building chain) block = false ∧
      ingestBlock world service state block = ⟨[], .ok (service, recoverFrom state)⟩) ∨
    (∃ fault, (service.options.chainSegmentSize = 0 ∨ service.options.chainSegmentUploadOffsetSize = 0) ∧
      ingestBlock world service state block = ⟨[], .error fault⟩) ∨
    (canGrow (.building chain) block = true ∧
      (chain.grown block).canonical.length <
        service.options.chainSegmentSize + service.options.chainSegmentUploadOffsetSize ∧
      ingestBlock world service state block =
        ⟨appendWrites world state block (chain.grown block),
          .ok ((service.withChain (chain.grown block)).resumeIngestion state block.cursor)⟩) ∨
    (∃ lastHash nextHash, canGrow (.building chain) block = true ∧
      Uploads service.options (chain.grown block) lastHash nextHash ∧
      ingestBlock world service state block =
        ⟨.putSegment ((chain.grown block).takenSegment service.options.chainSegmentSize lastHash) ::
            publishWrites world
              ((chain.grown block).remaining service.options.chainSegmentSize lastHash nextHash).snapshot,
          .ok ((service.withChain
            ((chain.grown block).remaining service.options.chainSegmentSize lastHash nextHash)).resumeIngestion
              state block.cursor)⟩) := by
  cases allowed : canGrow (.building chain) block with
  | false =>
    refine .inl ⟨rfl, ?_⟩
    rw [ingestBlock, builder, allowed]
    rfl
  | true =>
    rcases uploadChainSegment_cases service wf with
      ⟨short, -⟩ | ⟨fault, zero, failed⟩ | ⟨lastHash, nextHash, uploads, uploaded⟩
    · exact .inr (.inr (.inl ⟨rfl, short, ingestBlock_of_short world service state builder allowed short⟩))
    · refine .inr (.inl ⟨fault, zero, ?_⟩)
      rw [ingestBlock, builder, if_pos allowed, appendBlock_eq world service state builder allowed, failed]
      rfl
    · refine .inr (.inr (.inr ⟨lastHash, nextHash, rfl, uploads, ?_⟩))
      rw [ingestBlock, builder, if_pos allowed, appendBlock_eq world service state builder allowed, uploaded,
        Planned.ok_bind]
      simp only [Bool.or_true, if_true]
      rfl

end

theorem checkCandidate_common {poll candidate} (common : checkCandidate poll candidate = .ok .common) :
    ∃ remote, poll = .answer (.ok remote) ∧ remote.cursor = candidate := by
  unfold checkCandidate at common
  split at common
  · simp at common
  · split_ifs at common with same
    · exact ⟨_, rfl, same⟩
    · simp at common
  · split_ifs at common
    simp at common

/-- The node has another block than the candidate, or none. -/
def RecoverPoll.Misses (poll : RecoverPoll) (candidate : Cursor) : Prop :=
  (∃ remote, poll = .answer (.ok remote) ∧ remote.cursor ≠ candidate) ∨
  (∃ report, poll = .answer (.error report) ∧ report.isBlockNotFound = true)

theorem checkCandidate_reorged {poll candidate} (reorged : checkCandidate poll candidate = .ok .reorged) :
    poll.Misses candidate := by
  unfold checkCandidate at reorged
  split at reorged
  · simp at reorged
  · split_ifs at reorged with same
    · simp at reorged
    · exact .inl ⟨_, rfl, same⟩
  · split_ifs at reorged with notFound
    exact .inr ⟨_, rfl, notFound⟩

/-- One iteration of the loop of `tick_recover` that ended with a common block:
    it is the candidate, or the search went on below it. -/
theorem findCommonBlock_step {canonicalChain poll number hash common}
    (found : findCommonBlock canonicalChain poll number hash = .ok (some common)) :
    ((∃ remote, poll number = .answer (.ok remote) ∧ remote.cursor = common) ∧ common = ⟨number, hash⟩) ∨
    (∃ below parent, number = below + 1 ∧
      (poll number).Misses ⟨number, hash⟩ ∧
      canonicalChain.canonicalAt below = .ok parent ∧
      findCommonBlock canonicalChain poll below parent.hash = .ok (some common)) := by
  cases number with
  | zero =>
    cases checked : checkCandidate (poll 0) ⟨0, hash⟩ with
    | error => simp [findCommonBlock, checked, bind, Except.bind] at found
    | ok check =>
      cases check with
      | cancelled => simp [findCommonBlock, checked, bind, Except.bind, pure, Except.pure] at found
      | common =>
        simp only [findCommonBlock, checked] at found
        cases found
        exact .inl ⟨checkCandidate_common checked, rfl⟩
      | reorged => simp [findCommonBlock, checked, bind, Except.bind, Outcome.fail] at found
  | succ below =>
    cases checked : checkCandidate (poll (below + 1)) ⟨below + 1, hash⟩ with
    | error => simp [findCommonBlock, checked, bind, Except.bind] at found
    | ok check =>
      cases check with
      | cancelled => simp [findCommonBlock, checked, bind, Except.bind, pure, Except.pure] at found
      | common =>
        simp only [findCommonBlock, checked] at found
        cases found
        exact .inl ⟨checkCandidate_common checked, rfl⟩
      | reorged =>
        cases parentAt : canonicalChain.canonicalAt below with
        | ok parent =>
          simp only [findCommonBlock, checked, parentAt, Outcome.changeContext] at found
          exact .inr ⟨below, parent, rfl, checkCandidate_reorged checked, parentAt, found⟩
        | error fault =>
          cases fault <;>
            simp [findCommonBlock, checked, parentAt, Outcome.changeContext, bind, Except.bind] at found

/-- The loop of `tick_recover` stops at the highest block, from the candidate
    down, that the node still has. -/
theorem findCommonBlock_some (wf : chain.WellFormed) {poll number hash} (canonical : chain.hashAt number = some hash)
    {common} (found : findCommonBlock chain.snapshot poll number hash = .ok (some common)) :
    common.number ≤ number ∧ chain.hashAt common.number = some common.hash ∧
      (∃ remote, poll common.number = .answer (.ok remote) ∧ remote.cursor = common) ∧
      ∀ higher, common.number < higher → higher ≤ number → ∀ replaced, chain.hashAt higher = some replaced →
        (poll higher).Misses ⟨higher, replaced⟩ := by
  induction number generalizing hash with
  | zero =>
    rcases findCommonBlock_step found with ⟨polled, rfl⟩ | ⟨below, -, impossible, -⟩
    · exact ⟨le_rfl, canonical, polled, fun higher lower upper => absurd upper (not_le.mpr lower)⟩
    · exact absurd impossible (by omega)
  | succ number ih =>
    rcases findCommonBlock_step found with
      ⟨polled, rfl⟩ | ⟨below, _, _, unmatched, parentAt, later⟩
    · exact ⟨le_rfl, canonical, polled, fun higher lower upper => absurd upper (not_le.mpr lower)⟩
    · obtain rfl : number = below := by omega
      have parentHash := Building.snapshot_canonicalAt_inv wf parentAt
      obtain ⟨upper, commonAt, polled, unmatchedBelow⟩ := ih parentHash later
      refine ⟨Nat.le_succ_of_le upper, commonAt, polled, fun higher lower top replaced replacedAt => ?_⟩
      rcases Nat.lt_or_eq_of_le top with below | rfl
      · exact unmatchedBelow higher lower (Nat.lt_succ_iff.mp below) replaced replacedAt
      · cases canonical.symm.trans replacedAt
        exact unmatched

theorem recoveryHead_eq {service : IngestionService} {state : RecoverState} (poll : Nat → RecoverPoll)
    (builder : service.chainBuilder = .building chain) (wf : chain.WellFormed)
    (lastHash : chain.hashAt state.lastIngested.number = some state.lastIngested.hash) :
    service.recoveryHead state poll =
      findCommonBlock chain.snapshot poll state.lastIngested.number state.lastIngested.hash := by
  have lastAt : chain.snapshot.canonicalAt state.lastIngested.number = .ok state.lastIngested :=
    Building.snapshot_canonicalAt wf lastHash
  simp only [recoveryHead, builder, Building.currentSegment_building, Outcome.changeContext, lastAt, bind, Except.bind,
    ne_eq, not_true_eq_false, if_false]

theorem shrinkTo_eq {service : IngestionService} (builder : service.chainBuilder = .building chain)
    (wf : chain.WellFormed) {newHead : Cursor} (canonical : chain.hashAt newHead.number = some newHead.hash) :
    service.shrinkTo newHead = (.ok (), service.taskQueueClear.withChain (chain.shrinkTo newHead)) := by
  obtain ⟨_, shrunk⟩ := Building.shrink_shrinkTo wf canonical
  simp only [shrinkTo, taskQueueClear, builder, shrunk]
  rfl

theorem tickRecover_cases (world : World) (service : IngestionService) (state : RecoverState) (poll : Nat → RecoverPoll)
    (builder : service.chainBuilder = .building chain) (wf : chain.WellFormed)
    (last : chain.info.lastBlock = state.lastIngested) :
    (∃ fault,
      findCommonBlock chain.snapshot poll state.lastIngested.number state.lastIngested.hash = .error fault ∧
      tickRecover world service state poll = ⟨[], .error fault⟩) ∨
    (findCommonBlock chain.snapshot poll state.lastIngested.number state.lastIngested.hash = .ok none ∧
      tickRecover world service state poll = ⟨[], .ok (service, .recover state)⟩) ∨
    (∃ newHead,
      findCommonBlock chain.snapshot poll state.lastIngested.number state.lastIngested.hash =
        .ok (some newHead) ∧
      tickRecover world service state poll =
        ⟨publishWrites world (chain.shrinkTo newHead).snapshot,
          .ok (service.taskQueueClear.withChain (chain.shrinkTo newHead), recovered state newHead)⟩) := by
  have lastHash : chain.hashAt state.lastIngested.number = some state.lastIngested.hash := by
    rw [← last]
    exact wf.lastHash
  rw [tickRecover, recoveryHead_eq poll builder wf lastHash]
  cases found : findCommonBlock chain.snapshot poll state.lastIngested.number state.lastIngested.hash with
  | error fault => exact .inl ⟨fault, rfl, rfl⟩
  | ok common =>
    cases common with
    | none => exact .inr (.inl ⟨rfl, rfl⟩)
    | some newHead =>
      refine .inr (.inr ⟨newHead, rfl, ?_⟩)
      simp only [Planned.lift_ok_bind, shrinkTo_eq builder wf (findCommonBlock_some wf lastHash found).2.1]
      rfl

/-- Where a chain read from the store is taken up again. -/
def Restarts (finalized head lastBlock : Cursor) (answers : InitializeAnswers) (state : IngestionState) : Prop :=
  state = .recover { finalized, existingHead := head, lastIngested := lastBlock } ∨
  (state = ingestFrom finalized head lastBlock ∧
    ∃ block, answers.blockInfo lastBlock.number = .ok block ∧ block.cursor = lastBlock)

theorem checkLastBlock_cases (lastBlock : Cursor) (answers : InitializeAnswers) :
    (∃ fault, checkLastBlock lastBlock answers = .error fault) ∨
    checkLastBlock lastBlock answers = .ok (.recover lastBlock) ∨
    (checkLastBlock lastBlock answers = .ok (.resume lastBlock) ∧
      ∃ block, answers.blockInfo lastBlock.number = .ok block ∧ block.cursor = lastBlock) := by
  unfold checkLastBlock
  cases answers.blockInfo lastBlock.number with
  | ok block =>
    simp only
    split_ifs with different
    · exact .inr (.inl rfl)
    · have same := not_not.mp different
      exact .inr (.inr ⟨by rw [← same], block, rfl, same.symm⟩)
  | error =>
    simp only
    split_ifs
    · exact .inr (.inl rfl)
    · exact .inl ⟨_, rfl⟩

/-- The block that a deployment without a chain starts from. -/
def startingBlock (options : IngestionServiceOptions) : Nat := options.overrideStartingBlock.getD 0

theorem getStartingCursor_some {world segment} (recent : recentSegment world = .ok (some segment))
    (service : IngestionService) (answers : InitializeAnswers) :
    getStartingCursor world service answers =
      (lift (checkLastBlock segment.info.lastBlock answers) >>= fun action =>
        pure ({ service with chainBuilder := restoreFromSegment segment }, action)) := by
  rw [getStartingCursor, recent]
  rfl

theorem getStartingCursor_none {world} (recent : recentSegment world = .ok none)
    (noLegacy : world.store.legacyRecent = none) (service : IngestionService) (answers : InitializeAnswers) :
    getStartingCursor world service answers =
      ⟨[.putStartingBlock (startingBlock service.options)],
        .ok (service, .start (startingBlock service.options))⟩ := by
  rw [getStartingCursor, recent, migrateLegacyRecentSegment, noLegacy]
  rfl

theorem initializeService_eq {answers : InitializeAnswers} {head finalized} (headIs : answers.head = .ok head)
    (finalizedIs : answers.finalized = .ok finalized) (world : World) (service : IngestionService) :
    initializeService world service answers =
      (write (.putFinalized finalized.number) >>= fun _ =>
        getStartingCursor world service answers >>= fun found =>
          beginIngestion world found.1 answers finalized head found.2) := by
  rw [initializeService, headIs, finalizedIs]
  rfl

theorem initializeService_cases (world : World) (options : IngestionServiceOptions) (supportsPending : Bool)
    (answers : InitializeAnswers) (noLegacy : world.store.legacyRecent = none) :
    (∃ fault, initializeService world (new options supportsPending) answers = ⟨[], .error fault⟩) ∨
    (∃ finalized, answers.finalized = .ok finalized ∧
      ((∃ fault, initializeService world (new options supportsPending) answers =
        ⟨[.putFinalized finalized.number], .error fault⟩) ∨
      (recentSegment world = .ok none ∧
        ∃ fault, initializeService world (new options supportsPending) answers =
          ⟨[.putFinalized finalized.number, .putStartingBlock (startingBlock options)], .error fault⟩) ∨
      (∃ head block, answers.head = .ok head ∧ recentSegment world = .ok none ∧
        answers.ingestBlock (startingBlock options) = .ok block ∧
        initializeService world (new options supportsPending) answers =
          ⟨.putFinalized finalized.number :: .putStartingBlock (startingBlock options) ::
              publishWrites world (Building.single block).snapshot,
            .ok ((new options supportsPending).withChain (.single block),
              ingestFrom finalized head block.cursor)⟩) ∨
      (∃ head segment state, answers.head = .ok head ∧ recentSegment world = .ok (some segment) ∧
        Restarts finalized head segment.info.lastBlock answers state ∧
        initializeService world (new options supportsPending) answers =
          ⟨[.putFinalized finalized.number],
            .ok ({ new options supportsPending with
              chainBuilder := restoreFromSegment segment }, state)⟩))) := by
  cases headIs : answers.head with
  | error report => exact .inl ⟨_, by rw [initializeService, headIs]; rfl⟩
  | ok head =>
  cases finalizedIs : answers.finalized with
  | error report => exact .inl ⟨_, by rw [initializeService, headIs, finalizedIs]; rfl⟩
  | ok finalized =>
    rw [initializeService_eq headIs finalizedIs]
    refine .inr ⟨finalized, rfl, ?_⟩
    cases recent : recentSegment world with
    | error fault => exact .inl ⟨fault, by rw [getStartingCursor, recent]; rfl⟩
    | ok published =>
      cases published with
      | some segment =>
        rw [getStartingCursor_some recent]
        rcases checkLastBlock_cases segment.info.lastBlock answers with
          ⟨fault, failed⟩ | recovers | ⟨resumes, confirmed⟩
        · exact .inl ⟨fault, by rw [failed]; rfl⟩
        · exact .inr (.inr (.inr ⟨head, segment, _, rfl, rfl, .inl rfl, by rw [recovers]; rfl⟩))
        · refine .inr (.inr (.inr ⟨head, segment, _, rfl, rfl, .inr ⟨rfl, confirmed⟩, ?_⟩))
          rw [resumes]
          rfl
      | none =>
        rw [getStartingCursor_none recent noLegacy]
        cases fetched : answers.ingestBlock (startingBlock options) with
        | error report =>
          refine .inr (.inl ⟨rfl, .error report, ?_⟩)
          rw [Planned.ok_bind]
          simp only [beginIngestion, new, fetched]
          rfl
        | ok block =>
          refine .inr (.inr (.inl ⟨head, block, rfl, rfl, rfl, ?_⟩))
          rw [Planned.ok_bind]
          simp only [beginIngestion, new, fetched]
          rfl

end IngestionService

end Starkstream
