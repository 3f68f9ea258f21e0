import Starkstream.Query.Fragment
import Starkstream.Starknet.Proto

/-! # Indexing a Starknet block

`collect_block_body_and_index` walks over the transactions of a block once.  It
numbers the events and messages in the order in which it meets them, and fills
the bodies, the indexes and the joins as it goes.  The encoding of the messages
is a parameter; writing a bitmap to a buffer in memory does not fail.  The source casts
lengths to `u32`, which `Fragments.Consistent.inU32` is about.
-/

namespace Starkstream.Starknet

namespace Fragment

def transactionFragmentId : FragmentId := 2

def receiptFragmentId : FragmentId := 3

def eventFragmentId : FragmentId := 4

def messageFragmentId : FragmentId := 5

def storageDiffFragmentId : FragmentId := 6

def contractChangeFragmentId : FragmentId := 7

def nonceUpdateFragmentId : FragmentId := 8

def traceFragmentId : FragmentId := 9

def indexTransactionByStatus : IndexId := 0

def indexTransactionByType : IndexId := 1

def indexEventByAddress : IndexId := 0

def indexEventByKey0 : IndexId := 1

def indexEventByKey1 : IndexId := 2

def indexEventByKey2 : IndexId := 3

def indexEventByKey3 : IndexId := 4

def indexEventByKeyLength : IndexId := 5

def indexEventByTransactionStatus : IndexId := 6

def indexMessageByFromAddress : IndexId := 0

def indexMessageByToAddress : IndexId := 1

def indexMessageByTransactionStatus : IndexId := 2

def indexStorageDiffByContractAddress : IndexId := 0

def indexContractChangeByType : IndexId := 0

def indexNonceUpdateByContractAddress : IndexId := 0

end Fragment

inductive TransactionType where
  | invokeV0
  | invokeV1
  | invokeV3
  | deploy
  | declareV0
  | declareV1
  | declareV2
  | declareV3
  | l1Handler
  | deployAccountV1
  | deployAccountV3
  deriving DecidableEq

namespace TransactionType

def toNat : TransactionType → Nat
  | invokeV0 => 0
  | invokeV1 => 1
  | invokeV3 => 2
  | deploy => 3
  | declareV0 => 4
  | declareV1 => 5
  | declareV2 => 6
  | declareV3 => 7
  | l1Handler => 8
  | deployAccountV1 => 9
  | deployAccountV3 => 10

def toScalarValue (type : TransactionType) : ScalarValue := .uint32 type.toNat

end TransactionType

inductive ContractChangeType where
  | declaredClass
  | deployed
  | replaced
  deriving DecidableEq

namespace ContractChangeType

def toNat : ContractChangeType → Nat
  | declaredClass => 0
  | deployed => 1
  | replaced => 2

def toScalarValue (type : ContractChangeType) : ScalarValue := .uint32 type.toNat

end ContractChangeType

def TransactionStatus.toScalarValue (status : TransactionStatus) : ScalarValue := .int32 status.toInt

/-- How messages are written. -/
structure Encoding (Content : Type) where
  transaction : Proto.Transaction Content → SerializedProto
  receipt : Proto.TransactionReceipt Content → SerializedProto
  event : Proto.Event → SerializedProto
  message : Proto.MessageToL1 → SerializedProto
  trace : Proto.TransactionTrace Content → SerializedProto
  storageDiff : Proto.StorageDiff → SerializedProto
  contractChange : Proto.ContractChange → SerializedProto
  nonceUpdate : Proto.NonceUpdate → SerializedProto

/-- No message has any bytes. -/
def Encoding.noBytes : Encoding Unit :=
  ⟨fun _ => [], fun _ => [], fun _ => [], fun _ => [], fun _ => [], fun _ => [], fun _ => [], fun _ => []⟩

structure BlockIngestionResult where
  body : List BodyFragment
  index : List IndexFragment
  join : List JoinFragment

def Proto.TransactionInner.type {Content : Type} : Proto.TransactionInner Content → TransactionType
  | invokeV0 _ => .invokeV0
  | invokeV1 _ => .invokeV1
  | invokeV3 _ => .invokeV3
  | deploy _ => .deploy
  | declareV0 _ => .declareV0
  | declareV1 _ => .declareV1
  | declareV2 _ => .declareV2
  | declareV3 _ => .declareV3
  | l1Handler _ => .l1Handler
  | deployAccountV1 _ => .deployAccountV1
  | deployAccountV3 _ => .deployAccountV3

def setTransactionMeta {Content : Type} (transaction : Proto.Transaction Content) (transactionHash : FieldElement)
    (index : Nat) (status : TransactionStatus) : Proto.Transaction Content :=
  match transaction.metadata with
  | some _ => { transaction with metadata := some ⟨some transactionHash, index, status.toInt⟩ }
  | none => transaction

def setReceiptTransactionIndex {Content : Type} (receipt : Proto.TransactionReceipt Content) (index : Nat) :
    Proto.TransactionReceipt Content :=
  match receipt.metadata with
  | some metadata => { receipt with metadata := some { metadata with transactionIndex := index } }
  | none => receipt

/-- The variables of the loops over the transactions of a block. -/
structure Collected (Content : Type) where
  blockTransactions : List (Proto.Transaction Content) := []
  blockReceipts : List (Proto.TransactionReceipt Content) := []
  blockEvents : List Proto.Event := []
  blockMessages : List Proto.MessageToL1 := []
  blockTraces : List (Proto.TransactionTrace Content) := []
  indexTransactionByStatus : BitmapIndexBuilder := ∅
  indexTransactionByType : BitmapIndexBuilder := ∅
  joinTransactionToReceipt : JoinToOneIndexBuilder := ∅
  joinTransactionToEvents : JoinToManyIndexBuilder := ∅
  joinTransactionToMessages : JoinToManyIndexBuilder := ∅
  joinTransactionToTrace : JoinToOneIndexBuilder := ∅
  indexEventByAddress : BitmapIndexBuilder := ∅
  indexEventByKey0 : BitmapIndexBuilder := ∅
  indexEventByKey1 : BitmapIndexBuilder := ∅
  indexEventByKey2 : BitmapIndexBuilder := ∅
  indexEventByKey3 : BitmapIndexBuilder := ∅
  indexEventByKeyLength : BitmapIndexBuilder := ∅
  indexEventByTransactionStatus : BitmapIndexBuilder := ∅
  joinEventToTransaction : JoinToOneIndexBuilder := ∅
  joinEventToReceipt : JoinToOneIndexBuilder := ∅
  joinEventToSiblings : JoinToManyIndexBuilder := ∅
  joinEventToMessages : JoinToManyIndexBuilder := ∅
  joinEventToTrace : JoinToOneIndexBuilder := ∅
  indexMessageByFromAddress : BitmapIndexBuilder := ∅
  indexMessageByToAddress : BitmapIndexBuilder := ∅
  indexMessageByTransactionStatus : BitmapIndexBuilder := ∅
  joinMessageToTransaction : JoinToOneIndexBuilder := ∅
  joinMessageToReceipt : JoinToOneIndexBuilder := ∅
  joinMessageToEvents : JoinToManyIndexBuilder := ∅
  joinMessageToSiblings : JoinToManyIndexBuilder := ∅
  joinMessageToTrace : JoinToOneIndexBuilder := ∅

/-- The transaction whose events and messages are being collected. -/
structure TransactionRef where
  transactionIndex : Nat
  transactionHash : FieldElement
  transactionStatus : TransactionStatus

namespace Collected

variable {Content : Type}

def collectTrace (collected : Collected Content) (transactionTrace : Model.TransactionTraceWithHash Content) :
    Collected Content :=
  let transactionIndex := collected.blockTraces.length
  let trace := { transactionTrace.toProto with transactionIndex }
  { collected with
    joinTransactionToTrace := collected.joinTransactionToTrace.insert transactionIndex transactionIndex
    blockTraces := collected.blockTraces ++ [trace] }

/-- Collect one event of a transaction, and add its row to those of the transaction. -/
def collectEvent (transaction : TransactionRef) (state : Collected Content × List Nat)
    (indexedEvent : Model.Event × Nat) : Collected Content × List Nat :=
  let (collected, transactionEventsId) := state
  let eventIndex := collected.blockEvents.length
  let event : Proto.Event :=
    { indexedEvent.1.toProto with
      eventIndex
      transactionIndex := transaction.transactionIndex
      transactionHash := some transaction.transactionHash
      transactionStatus := transaction.transactionStatus.toInt
      eventIndexInTransaction := indexedEvent.2 }
  let key position := event.keys[position]?.map FieldElement.toScalarValue
  ({ collected with
      joinTransactionToEvents := collected.joinTransactionToEvents.insert transaction.transactionIndex eventIndex
      joinEventToTransaction := collected.joinEventToTransaction.insert eventIndex transaction.transactionIndex
      joinEventToReceipt := collected.joinEventToReceipt.insert eventIndex transaction.transactionIndex
      joinEventToTrace :=
        if collected.blockTraces.isEmpty then collected.joinEventToTrace
        else collected.joinEventToTrace.insert eventIndex transaction.transactionIndex
      indexEventByAddress :=
        collected.indexEventByAddress.insertSome (event.fromAddress.map FieldElement.toScalarValue) eventIndex
      indexEventByKey0 := collected.indexEventByKey0.insertSome (key 0) eventIndex
      indexEventByKey1 := collected.indexEventByKey1.insertSome (key 1) eventIndex
      indexEventByKey2 := collected.indexEventByKey2.insertSome (key 2) eventIndex
      indexEventByKey3 := collected.indexEventByKey3.insertSome (key 3) eventIndex
      indexEventByKeyLength := collected.indexEventByKeyLength.insert (.uint32 event.keys.length) eventIndex
      indexEventByTransactionStatus :=
        collected.indexEventByTransactionStatus.insert transaction.transactionStatus.toScalarValue eventIndex
      blockEvents := collected.blockEvents ++ [event] },
    transactionEventsId ++ [eventIndex])

/-- Collect one message of a transaction, and add its row to those of the transaction. -/
def collectMessage (transaction : TransactionRef) (state : Collected Content × List Nat)
    (indexedMessage : Model.MsgToL1 × Nat) : Collected Content × List Nat :=
  let (collected, transactionMessagesId) := state
  let messageIndex := collected.blockMessages.length
  let message : Proto.MessageToL1 :=
    { indexedMessage.1.toProto with
      messageIndex
      transactionIndex := transaction.transactionIndex
      transactionHash := some transaction.transactionHash
      transactionStatus := transaction.transactionStatus.toInt
      messageIndexInTransaction := indexedMessage.2 }
  ({ collected with
      joinTransactionToMessages :=
        collected.joinTransactionToMessages.insert transaction.transactionIndex messageIndex
      joinMessageToTransaction :=
        collected.joinMessageToTransaction.insert messageIndex transaction.transactionIndex
      joinMessageToReceipt := collected.joinMessageToReceipt.insert messageIndex transaction.transactionIndex
      joinMessageToTrace :=
        if collected.blockTraces.isEmpty then collected.joinMessageToTrace
        else collected.joinMessageToTrace.insert messageIndex transaction.transactionIndex
      indexMessageByFromAddress :=
        collected.indexMessageByFromAddress.insertSome (message.fromAddress.map FieldElement.toScalarValue)
          messageIndex
      indexMessageByToAddress :=
        collected.indexMessageByToAddress.insertSome (message.toAddress.map FieldElement.toScalarValue) messageIndex
      indexMessageByTransactionStatus :=
        collected.indexMessageByTransactionStatus.insert transaction.transactionStatus.toScalarValue messageIndex
      blockMessages := collected.blockMessages ++ [message] },
    transactionMessagesId ++ [messageIndex])

/-- Join every row with every other row of the list, in both directions. -/
def insertSiblings (ids : List Nat) (id : Nat) (siblings : JoinToManyIndexBuilder) : JoinToManyIndexBuilder :=
  ids.foldl (fun siblings siblingId =>
    if id ≠ siblingId then (siblings.insert id siblingId).insert siblingId id else siblings) siblings

/-- Join an event of a transaction with its siblings and with the messages of the transaction. -/
def joinEvent (eventIds messageIds : List Nat) (collected : Collected Content) (eventId : Nat) :
    Collected Content :=
  { collected with
    joinEventToSiblings := insertSiblings eventIds eventId collected.joinEventToSiblings
    joinEventToMessages :=
      messageIds.foldl (fun joins messageId => joins.insert eventId messageId) collected.joinEventToMessages
    joinMessageToEvents :=
      messageIds.foldl (fun joins messageId => joins.insert messageId eventId) collected.joinMessageToEvents }

def joinMessage (messageIds : List Nat) (collected : Collected Content) (messageId : Nat) : Collected Content :=
  { collected with
    joinMessageToSiblings := insertSiblings messageIds messageId collected.joinMessageToSiblings }

/-- Add a transaction and its receipt to the bodies. -/
def pushTransaction (ref : TransactionRef) (item : Model.TransactionWithReceipt Content)
    (collected : Collected Content) : Collected Content :=
  let transactionIndex := ref.transactionIndex
  let transaction :=
    setTransactionMeta item.transaction.toProto ref.transactionHash transactionIndex ref.transactionStatus
  let transactionType := transaction.transaction.map Proto.TransactionInner.type
  let receipt := setReceiptTransactionIndex item.receipt.toProto transactionIndex
  { collected with
    indexTransactionByType :=
      collected.indexTransactionByType.insertSome (transactionType.map TransactionType.toScalarValue)
        transactionIndex
    indexTransactionByStatus :=
      collected.indexTransactionByStatus.insert ref.transactionStatus.toScalarValue transactionIndex
    joinTransactionToReceipt := collected.joinTransactionToReceipt.insert transactionIndex transactionIndex
    blockTransactions := collected.blockTransactions ++ [transaction]
    blockReceipts := collected.blockReceipts ++ [receipt] }

def collectTransaction (collected : Collected Content)
    (indexedTransaction : Model.TransactionWithReceipt Content × Nat) : Collected Content :=
  let receipt := indexedTransaction.1.receipt
  let ref : TransactionRef :=
    ⟨indexedTransaction.2, toProto receipt.transactionHash, receipt.executionResult.status⟩
  let (collected, transactionEventsId) := receipt.events.zipIdx.foldl (collectEvent ref) (collected, [])
  let (collected, transactionMessagesId) :=
    receipt.messagesSent.zipIdx.foldl (collectMessage ref) (collected, [])
  let collected := transactionEventsId.foldl (joinEvent transactionEventsId transactionMessagesId) collected
  let collected := transactionMessagesId.foldl (joinMessage transactionMessagesId) collected
  pushTransaction ref indexedTransaction.1 collected

def collect (transactions : List (Model.TransactionWithReceipt Content))
    (transactionTraces : List (Model.TransactionTraceWithHash Content)) : Collected Content :=
  transactions.zipIdx.foldl collectTransaction (transactionTraces.foldl collectTrace {})

/-- The bodies are sorted by their own indexes at the end. -/
def sort (collected : Collected Content) : Collected Content :=
  { collected with
    blockEvents := collected.blockEvents.insertionSort fun left right => left.eventIndex ≤ right.eventIndex
    blockTransactions := collected.blockTransactions.insertionSort fun left right =>
      (left.metadata.map (·.transactionIndex)).getD 0 ≤ (right.metadata.map (·.transactionIndex)).getD 0
    blockReceipts := collected.blockReceipts.insertionSort fun left right =>
      (left.metadata.map (·.transactionIndex)).getD 0 ≤ (right.metadata.map (·.transactionIndex)).getD 0
    blockMessages :=
      collected.blockMessages.insertionSort fun left right => left.messageIndex ≤ right.messageIndex }

def transactionIndex (collected : Collected Content) : IndexFragment where
  fragmentId := Fragment.transactionFragmentId
  rangeStart := 0
  rangeLen := collected.blockTransactions.length
  indexes :=
    [⟨Fragment.indexTransactionByStatus, .bitmap collected.indexTransactionByStatus.build⟩,
      ⟨Fragment.indexTransactionByType, .bitmap collected.indexTransactionByType.build⟩]

def transactionJoin (collected : Collected Content) : JoinFragment where
  fragmentId := Fragment.transactionFragmentId
  joins :=
    [⟨Fragment.receiptFragmentId, .one collected.joinTransactionToReceipt.build⟩,
      ⟨Fragment.eventFragmentId, .many collected.joinTransactionToEvents.build⟩,
      ⟨Fragment.messageFragmentId, .many collected.joinTransactionToMessages.build⟩,
      ⟨Fragment.traceFragmentId, .one collected.joinTransactionToTrace.build⟩]

def eventIndex (collected : Collected Content) : IndexFragment where
  fragmentId := Fragment.eventFragmentId
  rangeStart := 0
  rangeLen := collected.blockEvents.length
  indexes :=
    [⟨Fragment.indexEventByAddress, .bitmap collected.indexEventByAddress.build⟩,
      ⟨Fragment.indexEventByKey0, .bitmap collected.indexEventByKey0.build⟩,
      ⟨Fragment.indexEventByKey1, .bitmap collected.indexEventByKey1.build⟩,
      ⟨Fragment.indexEventByKey2, .bitmap collected.indexEventByKey2.build⟩,
      ⟨Fragment.indexEventByKey3, .bitmap collected.indexEventByKey3.build⟩,
      ⟨Fragment.indexEventByKeyLength, .bitmap collected.indexEventByKeyLength.build⟩,
      ⟨Fragment.indexEventByTransactionStatus, .bitmap collected.indexEventByTransactionStatus.build⟩]

def eventJoin (collected : Collected Content) : JoinFragment where
  fragmentId := Fragment.eventFragmentId
  joins :=
    [⟨Fragment.transactionFragmentId, .one collected.joinEventToTransaction.build⟩,
      ⟨Fragment.receiptFragmentId, .one collected.joinEventToReceipt.build⟩,
      ⟨Fragment.eventFragmentId, .many collected.joinEventToSiblings.build⟩,
      ⟨Fragment.messageFragmentId, .many collected.joinEventToMessages.build⟩,
      ⟨Fragment.traceFragmentId, .one collected.joinEventToTrace.build⟩]

def messageIndex (collected : Collected Content) : IndexFragment where
  fragmentId := Fragment.messageFragmentId
  rangeStart := 0
  rangeLen := collected.blockMessages.length
  indexes :=
    [⟨Fragment.indexMessageByFromAddress, .bitmap collected.indexMessageByFromAddress.build⟩,
      ⟨Fragment.indexMessageByToAddress, .bitmap collected.indexMessageByToAddress.build⟩,
      ⟨Fragment.indexMessageByTransactionStatus, .bitmap collected.indexMessageByTransactionStatus.build⟩]

def messageJoin (collected : Collected Content) : JoinFragment where
  fragmentId := Fragment.messageFragmentId
  joins :=
    [⟨Fragment.transactionFragmentId, .one collected.joinMessageToTransaction.build⟩,
      ⟨Fragment.receiptFragmentId, .one collected.joinMessageToReceipt.build⟩,
      ⟨Fragment.eventFragmentId, .many collected.joinMessageToEvents.build⟩,
      ⟨Fragment.messageFragmentId, .many collected.joinMessageToSiblings.build⟩,
      ⟨Fragment.traceFragmentId, .one collected.joinMessageToTrace.build⟩]

/-- There are no filters on receipts and traces, so they have no indexes and no joins. -/
def fragments (encoding : Encoding Content) (collected : Collected Content) : BlockIngestionResult where
  body :=
    [⟨Fragment.transactionFragmentId, "transaction", collected.blockTransactions.map encoding.transaction⟩,
      ⟨Fragment.receiptFragmentId, "receipt", collected.blockReceipts.map encoding.receipt⟩,
      ⟨Fragment.eventFragmentId, "event", collected.blockEvents.map encoding.event⟩,
      ⟨Fragment.messageFragmentId, "message", collected.blockMessages.map encoding.message⟩,
      ⟨Fragment.traceFragmentId, "trace", collected.blockTraces.map encoding.trace⟩]
  index :=
    [collected.transactionIndex,
      ⟨Fragment.receiptFragmentId, 0, collected.blockReceipts.length, []⟩,
      collected.eventIndex,
      collected.messageIndex,
      ⟨Fragment.traceFragmentId, 0, collected.blockTraces.length, []⟩]
  join :=
    [collected.transactionJoin,
      ⟨Fragment.receiptFragmentId, []⟩,
      collected.eventJoin,
      collected.messageJoin,
      ⟨Fragment.traceFragmentId, []⟩]

end Collected

def collectBlockBodyAndIndex {Content : Type} (encoding : Encoding Content)
    (transactions : List (Model.TransactionWithReceipt Content))
    (transactionTraces : List (Model.TransactionTraceWithHash Content)) : BlockIngestionResult :=
  (Collected.collect transactions transactionTraces).sort.fragments encoding

/-- The variables of the loops over a state update. -/
structure CollectedState where
  blockStorageDiffs : List Proto.StorageDiff := []
  blockContractChanges : List Proto.ContractChange := []
  blockNonceUpdates : List Proto.NonceUpdate := []
  indexStorageDiffByContractAddress : BitmapIndexBuilder := ∅
  indexContractChangeByType : BitmapIndexBuilder := ∅
  indexNonceUpdateByContractAddress : BitmapIndexBuilder := ∅

namespace CollectedState

def collectStorageDiff (collected : CollectedState) (item : Model.ContractStorageDiffItem) : CollectedState :=
  let index := collected.blockStorageDiffs.length
  let storageDiff := item.toProto
  { collected with
    indexStorageDiffByContractAddress := collected.indexStorageDiffByContractAddress.insertSome
      (storageDiff.contractAddress.map FieldElement.toScalarValue) index
    blockStorageDiffs := collected.blockStorageDiffs ++ [storageDiff] }

/-- The four loops over contract changes differ in the message and in its type. -/
def collectContractChange (type : ContractChangeType) (collected : CollectedState) (change : Proto.Change) :
    CollectedState :=
  let index := collected.blockContractChanges.length
  { collected with
    indexContractChangeByType := collected.indexContractChangeByType.insert type.toScalarValue index
    blockContractChanges := collected.blockContractChanges ++ [⟨some change⟩] }

def collectDeprecatedDeclaredClass (collected : CollectedState) (classHash : Felt) : CollectedState :=
  collected.collectContractChange .declaredClass (.declaredClass (some (toProto classHash)) none)

def collectDeclaredClass (collected : CollectedState) (item : Model.DeclaredClassItem) : CollectedState :=
  collected.collectContractChange .declaredClass item.toProto

def collectReplacedClass (collected : CollectedState) (item : Model.ReplacedClassItem) : CollectedState :=
  collected.collectContractChange .replaced item.toProto

def collectDeployedContract (collected : CollectedState) (item : Model.DeployedContractItem) : CollectedState :=
  collected.collectContractChange .deployed item.toProto

def collectNonceUpdate (collected : CollectedState) (update : Model.NonceUpdate) : CollectedState :=
  let index := collected.blockNonceUpdates.length
  let nonceUpdate := update.toProto
  { collected with
    indexNonceUpdateByContractAddress := collected.indexNonceUpdateByContractAddress.insertSome
      (nonceUpdate.contractAddress.map FieldElement.toScalarValue) index
    blockNonceUpdates := collected.blockNonceUpdates ++ [nonceUpdate] }

def collect (stateDiff : Model.StateDiff) : CollectedState :=
  let collected := stateDiff.storageDiffs.foldl collectStorageDiff {}
  let collected := stateDiff.deprecatedDeclaredClasses.foldl collectDeprecatedDeclaredClass collected
  let collected := stateDiff.declaredClasses.foldl collectDeclaredClass collected
  let collected := stateDiff.replacedClasses.foldl collectReplacedClass collected
  let collected := stateDiff.deployedContracts.foldl collectDeployedContract collected
  stateDiff.nonces.foldl collectNonceUpdate collected

def storageDiffIndex (collected : CollectedState) : IndexFragment where
  fragmentId := Fragment.storageDiffFragmentId
  rangeStart := 0
  rangeLen := collected.blockStorageDiffs.length
  indexes :=
    [⟨Fragment.indexStorageDiffByContractAddress, .bitmap collected.indexStorageDiffByContractAddress.build⟩]

def contractChangeIndex (collected : CollectedState) : IndexFragment where
  fragmentId := Fragment.contractChangeFragmentId
  rangeStart := 0
  rangeLen := collected.blockContractChanges.length
  indexes := [⟨Fragment.indexContractChangeByType, .bitmap collected.indexContractChangeByType.build⟩]

def nonceUpdateIndex (collected : CollectedState) : IndexFragment where
  fragmentId := Fragment.nonceUpdateFragmentId
  rangeStart := 0
  rangeLen := collected.blockNonceUpdates.length
  indexes :=
    [⟨Fragment.indexNonceUpdateByContractAddress, .bitmap collected.indexNonceUpdateByContractAddress.build⟩]

def fragments {Content : Type} (encoding : Encoding Content) (collected : CollectedState) :
    BlockIngestionResult where
  body :=
    [⟨Fragment.storageDiffFragmentId, "storage_diff", collected.blockStorageDiffs.map encoding.storageDiff⟩,
      ⟨Fragment.contractChangeFragmentId, "contract_change",
        collected.blockContractChanges.map encoding.contractChange⟩,
      ⟨Fragment.nonceUpdateFragmentId, "nonce_update", collected.blockNonceUpdates.map encoding.nonceUpdate⟩]
  index := [collected.storageDiffIndex, collected.contractChangeIndex, collected.nonceUpdateIndex]
  join :=
    [⟨Fragment.storageDiffFragmentId, []⟩, ⟨Fragment.contractChangeFragmentId, []⟩,
      ⟨Fragment.nonceUpdateFragmentId, []⟩]

end CollectedState

def collectStateUpdateBodyAndIndex {Content : Type} (encoding : Encoding Content) (stateDiff : Model.StateDiff) :
    BlockIngestionResult :=
  (CollectedState.collect stateDiff).fragments encoding

/-- The `index_block` span, which ends the ingestion of accepted and of pending blocks. -/
def indexBlock {Content : Type} (encoding : Encoding Content) (header : HeaderFragment)
    (transactions : List (Model.TransactionWithReceipt Content))
    (transactionTraces : List (Model.TransactionTraceWithHash Content)) (stateDiff : Model.StateDiff) : Block :=
  let body := collectBlockBodyAndIndex encoding transactions transactionTraces
  let stateUpdate := collectStateUpdateBodyAndIndex encoding stateDiff
  { header
    index := ⟨body.index ++ stateUpdate.index⟩
    join := ⟨body.join ++ stateUpdate.join⟩
    body := body.body ++ stateUpdate.body }

end Starkstream.Starknet
