import Starkstream.Provider.Http

/-! # Ingestion of the pending block

From the requests to the node to the tick of the service that takes the result.  The
pending block is asked for under the identifier that its receipts and its state update
can be asked for with, but not its traces: with traces turned on every pending block
fails before a request for traces is sent, and the failure ends the service.
-/

namespace Starkstream.Starknet

open IngestionService

structure StarknetBlockIngestionOptions where
  ingestPending : Bool
  ingestTraces : Bool

structure StarknetBlockIngestion (Content : Type) where
  client : JsonRpcClient Content
  options : StarknetBlockIngestionOptions
  encoding : Encoding Content
  encodeHeader : Proto.BlockHeader → SerializedProto

/-- `change_context` on the error of a request. -/
def toRpcRequest {α : Type} (attachments : List String) :
    Except (Report StarknetProviderError) α → Answer α
  | .ok value => .ok value
  | .error report => .error ⟨.rpcRequest, report.attachments ++ attachments⟩

namespace StarknetBlockIngestion

variable {Content : Type} (ingestion : StarknetBlockIngestion Content)

def pendingTraces : Answer (List (Model.TransactionTraceWithHash Content)) :=
  if ingestion.options.ingestTraces then
    toRpcRequest [] (StarknetProvider.getBlockTransactionTraces ingestion.client .pending)
  else .ok []

/-- The pending block, once its number is known to be the next one. -/
def ingestPreConfirmed (parent : Cursor) (generation : Nat) (block : Rpc.PreConfirmedBlockWithReceipts)
    (transactions : List (Model.TransactionWithReceipt Content)) : Answer (Option (PendingBlockInfo × Block)) := do
  match ← toRpcRequest [] (StarknetProvider.getStateUpdate ingestion.client .pending) with
  | .update _ => .error ⟨.rpcRequest, ["unexpected accepted state update"]⟩
  | .preConfirmedUpdate stateDiff => do
      let transactionTraces ← ingestion.pendingTraces
      let header : HeaderFragment := ⟨ingestion.encodeHeader (convertPreConfirmedBlockHeader block)⟩
      return some (⟨block.blockNumber.toNat, generation, parent.hash⟩,
        indexBlock ingestion.encoding header transactions transactionTraces stateDiff)

def ingestPendingBlock (parent : Cursor) (generation : Nat) : Answer (Option (PendingBlockInfo × Block)) :=
  match StarknetProvider.getBlockWithReceipts ingestion.client .pending with
  | .error report =>
    if report.isNotFound then .ok none
    else .error ⟨.rpcRequest, report.attachments ++ ["failed to get pre-confirmed block"]⟩
  | .ok (.block _ _) => .error ⟨.rpcRequest, ["unexpected accepted block"]⟩
  | .ok (.preConfirmedBlock block transactions) =>
    if block.blockNumber.toNat ≠ parent.number + 1 then .ok none
    else ingestion.ingestPreConfirmed parent generation block transactions

end StarknetBlockIngestion

/-- What the worker does with a pending block: check it and upload it. -/
def uploadPendingBlock (putPendingBlock : PendingBlockInfo → Block → Answer Unit) (parent : Cursor) :
    Option (PendingBlockInfo × Block) → Answer (Option PendingBlockInfo)
  | none => .ok none
  | some (blockInfo, block) =>
    if block.index.indexes.length ≠ block.body.length then
      .error ⟨.model,
        ["block indexes and body fragments do not match (pending block)",
          "block number: " ++ toString (parent.number + 1),
          "indexes len: " ++ toString block.index.indexes.length,
          "body len: " ++ toString block.body.length]⟩
    else
      match putPendingBlock blockInfo block with
      | .error report => .error ⟨.blockStoreRequest, report.attachments⟩
      | .ok _ => .ok (some blockInfo)

/-- The task that `push_ingest_pending_block` spawns. -/
def pendingJob (putPendingBlock : PendingBlockInfo → Block → Answer Unit) (parent : Cursor)
    (ingested : Answer (Option (PendingBlockInfo × Block))) : IngestionJobJoinResult :=
  .finished (match ingested with
    | .error report => .error ⟨report.context, report.attachments ++ ["block number: " ++ toString (parent.number + 1)]⟩
    | .ok result => (uploadPendingBlock putPendingBlock parent result).map .pending)

/-- The node answers with the pending block and its state update, and with traces for
    every block that they can be asked for. -/
structure Answering {Content : Type} (client : JsonRpcClient Content) (block : Rpc.PreConfirmedBlockWithReceipts)
    (transactions : List (Model.TransactionWithReceipt Content)) (stateDiff : Model.StateDiff) : Prop where
  block : client.getBlockWithReceipts .preConfirmed = .answered (.preConfirmedBlock block transactions)
  stateUpdate : client.getStateUpdate .preConfirmed = .answered (.preConfirmedUpdate stateDiff)
  traces : ∀ blockId, ∃ result, client.traceBlockTransactions blockId = .answered result

section

variable {Content : Type} {ingestion : StarknetBlockIngestion Content} {parent : Cursor} {generation : Nat}
  {block : Rpc.PreConfirmedBlockWithReceipts} {transactions : List (Model.TransactionWithReceipt Content)}
  {stateDiff : Model.StateDiff}

theorem Answering.ingestPendingBlock (answering : Answering ingestion.client block transactions stateDiff)
    (next : block.blockNumber.toNat = parent.number + 1) :
    ingestion.ingestPendingBlock parent generation = ingestion.pendingTraces.map fun transactionTraces =>
      some (⟨parent.number + 1, generation, parent.hash⟩,
        indexBlock ingestion.encoding ⟨ingestion.encodeHeader (convertPreConfirmedBlockHeader block)⟩ transactions
          transactionTraces stateDiff) := by
  have isBlock : StarknetProvider.getBlockWithReceipts ingestion.client .pending =
      .ok (.preConfirmedBlock block transactions) := by
    rw [StarknetProvider.getBlockWithReceipts, BlockId.toRpc, answering.block]
    rfl
  have isUpdate : StarknetProvider.getStateUpdate ingestion.client .pending = .ok (.preConfirmedUpdate stateDiff) := by
    rw [StarknetProvider.getStateUpdate, BlockId.toRpc, answering.stateUpdate]
    rfl
  simp only [StarknetBlockIngestion.ingestPendingBlock, isBlock, next, ne_eq, not_true, if_false,
    StarknetBlockIngestion.ingestPreConfirmed, isUpdate, toRpcRequest]
  cases ingestion.pendingTraces <;> rfl

/-- No request for the traces of the pending block is ever sent. -/
theorem pendingTraces_eq (ingestion : StarknetBlockIngestion Content) : ingestion.pendingTraces =
    if ingestion.options.ingestTraces then .error ⟨.rpcRequest, ["expected a confirmed block id, got pending"]⟩
    else .ok [] := rfl

theorem indexBlock_lengths (encoding : Encoding Content) (header : HeaderFragment)
    (transactionTraces : List (Model.TransactionTraceWithHash Content)) :
    (indexBlock encoding header transactions transactionTraces stateDiff).index.indexes.length =
      (indexBlock encoding header transactions transactionTraces stateDiff).body.length := rfl

/-- A pending block is ingested and the service goes on exactly when traces are turned off. -/
theorem pendingIngestion_iff (answering : Answering ingestion.client block transactions stateDiff)
    (next : block.blockNumber.toNat = parent.number + 1) {putPendingBlock : PendingBlockInfo → Block → Answer Unit}
    (stored : ∀ blockInfo block, putPendingBlock blockInfo block = .ok ()) (world : World)
    (service : IngestionService) (state : IngestState) :
    ((∃ ingested, ingestion.ingestPendingBlock parent generation = .ok (some ingested)) ∧
      ∃ after, (tickWithTaskResult world service state
        (some (pendingJob putPendingBlock parent (ingestion.ingestPendingBlock parent generation)))).result =
          .ok (service, .ingest after)) ↔ ingestion.options.ingestTraces = false := by
  rw [answering.ingestPendingBlock next, pendingTraces_eq]
  cases ingestion.options.ingestTraces with
  | true =>
    refine iff_of_false ?_ nofun
    rintro ⟨⟨ingested, failed⟩, -⟩
    cases failed
  | false =>
    refine iff_of_true ⟨⟨_, rfl⟩, ?_⟩ rfl
    simp only [Bool.false_eq_true, if_false, Except.map, pendingJob, uploadPendingBlock, indexBlock_lengths, ne_eq,
      not_true, stored]
    exact ⟨_, rfl⟩

end

namespace FirstPending

def block : Rpc.PreConfirmedBlockWithReceipts :=
  { blockNumber := 1
    timestamp := 0
    sequencerAddress := .ofByte 0
    l1GasPrice := ⟨.ofByte 0, .ofByte 0⟩
    l2GasPrice := ⟨.ofByte 0, .ofByte 0⟩
    l1DataGasPrice := ⟨.ofByte 0, .ofByte 0⟩
    l1DaMode := .blob
    starknetVersion := "0.14.0" }

def client : JsonRpcClient Unit :=
  { getBlockWithReceipts := fun _ => .answered (.preConfirmedBlock block [])
    getStateUpdate := fun _ => .answered (.preConfirmedUpdate ⟨[], [], [], [], [], []⟩)
    traceBlockTransactions := fun _ => .answered (.traces [])
    debug := fun _ => "Pending" }

theorem answering : Answering client block [] ⟨[], [], [], [], [], []⟩ := ⟨rfl, rfl, fun _ => ⟨_, rfl⟩⟩

def ingestion (ingestTraces : Bool) : StarknetBlockIngestion Unit := ⟨client, ⟨true, ingestTraces⟩, .noBytes, fun _ => []⟩

def state : IngestState := ⟨⟨0, ⟨[1]⟩⟩, ⟨0, ⟨[1]⟩⟩, ⟨0, ⟨[1]⟩⟩, 0, ⟨true, 0⟩⟩

end FirstPending

open FirstPending

theorem pendingIngestion_firstPending :
    (∃ ingested, (ingestion false).ingestPendingBlock state.lastIngested 1 = .ok (some ingested)) ∧
      ∃ after, (tickWithTaskResult .fresh (.new .default true) state (some (pendingJob (fun _ _ => .ok ())
        state.lastIngested ((ingestion false).ingestPendingBlock state.lastIngested 1)))).result =
          .ok (.new .default true, .ingest after) :=
  (pendingIngestion_iff (FirstPending.answering : Answering (ingestion false).client _ _ _) rfl (fun _ _ => rfl) .fresh
    (.new .default true) state).mpr rfl

/-- With traces the pending block fails although the node answers everything, and the
    service stops. -/
theorem pendingIngestion_traces :
    Answering (ingestion true).client FirstPending.block [] ⟨[], [], [], [], [], []⟩ ∧
      (ingestion true).options.ingestPending = true ∧
      (ingestion true).ingestPendingBlock state.lastIngested 1 =
        .error ⟨.rpcRequest, ["expected a confirmed block id, got pending"]⟩ ∧
      ∃ report, (tickWithTaskResult .fresh (.new .default true) state (some (pendingJob (fun _ _ => .ok ())
        state.lastIngested ((ingestion true).ingestPendingBlock state.lastIngested 1)))).result =
          .error (.error report) :=
  ⟨FirstPending.answering, rfl, rfl, _, rfl⟩

end Starkstream.Starknet
