import Starkstream.Query.Filter
import Starkstream.Starknet.Ingestion

/-! # What the rows of an indexed block are

Independently of the loops that number them, the events of a block are those of
its receipts in order, and likewise the messages; the rows of a fragment are the
positions in that list.  The loops keep, for the part of the block they have
seen, that the bodies are these lists and that every index is an index of its
body.
-/

namespace Starkstream

/-- A loop leaves alone what each of its turns leaves alone. -/
theorem foldl_unchanged {σ ι β : Type} (step : σ → ι → σ) (observe : σ → β)
    (turn : ∀ state item, observe (step state item) = observe state) (items : List ι) (state : σ) :
    observe (items.foldl step state) = observe state := by
  induction items generalizing state with
  | nil => rfl
  | cons item rest ih => exact (ih (step state item)).trans (turn state item)

end Starkstream

namespace Starkstream.Starknet

variable {Content : Type}

/-- Something a transaction emitted, with its place in the block. -/
structure Emitted (α Content : Type) where
  item : α
  indexInTransaction : Nat
  transactionIndex : Nat
  receipt : Model.TransactionReceipt Content

def Emitted.status {α : Type} (emitted : Emitted α Content) : TransactionStatus :=
  emitted.receipt.executionResult.status

def emittedBy {α : Type} (select : Model.TransactionReceipt Content → List α) (transactionIndex : Nat)
    (receipt : Model.TransactionReceipt Content) : List (Emitted α Content) :=
  (select receipt).zipIdx.map fun (item, index) => ⟨item, index, transactionIndex, receipt⟩

/-- What the transactions of a block emitted, in order. -/
def emitted {α : Type} (select : Model.TransactionReceipt Content → List α)
    (transactions : List (Model.TransactionWithReceipt Content)) : List (Emitted α Content) :=
  transactions.zipIdx.flatMap fun (transaction, index) => emittedBy select index transaction.receipt

def eventsOf (transactions : List (Model.TransactionWithReceipt Content)) :
    List (Emitted Model.Event Content) :=
  emitted Model.TransactionReceipt.events transactions

def messagesOf (transactions : List (Model.TransactionWithReceipt Content)) :
    List (Emitted Model.MsgToL1 Content) :=
  emitted Model.TransactionReceipt.messagesSent transactions

def eventAt (row : Nat) (event : Emitted Model.Event Content) : Proto.Event :=
  { event.item.toProto with
    eventIndex := row
    transactionIndex := event.transactionIndex
    transactionHash := some (toProto event.receipt.transactionHash)
    transactionStatus := event.status.toInt
    eventIndexInTransaction := event.indexInTransaction }

def messageAt (row : Nat) (message : Emitted Model.MsgToL1 Content) : Proto.MessageToL1 :=
  { message.item.toProto with
    messageIndex := row
    transactionIndex := message.transactionIndex
    transactionHash := some (toProto message.receipt.transactionHash)
    transactionStatus := message.status.toInt
    messageIndexInTransaction := message.indexInTransaction }

def transactionAt (row : Nat) (item : Model.TransactionWithReceipt Content) : Proto.Transaction Content where
  metadata := some ⟨some (toProto item.receipt.transactionHash), row, item.receipt.executionResult.status.toInt⟩
  transaction := some item.transaction.inner

def receiptAt (row : Nat) (item : Model.TransactionWithReceipt Content) : Proto.TransactionReceipt Content where
  metadata := some ⟨row, some (toProto item.receipt.transactionHash), item.receipt.fields.content⟩
  receipt := some item.receipt.inner

def elementColumn {α : Type} (element : α → Option FieldElement) : Column α where
  key item := (element item).map FieldElement.toScalarValue
  variant := 8
  ofVariant item value keyed := by
    obtain ⟨element, _, rfl⟩ := Option.map_eq_some_iff.mp keyed
    rfl

def numberColumn {α : Type} (number : α → Option Nat) : Column α where
  key item := (number item).map .uint32
  variant := 5
  ofVariant item value keyed := by
    obtain ⟨number, _, rfl⟩ := Option.map_eq_some_iff.mp keyed
    rfl

def statusColumn {α : Type} (status : α → Option Int) : Column α where
  key item := (status item).map .int32
  variant := 2
  ofVariant item value keyed := by
    obtain ⟨status, _, rfl⟩ := Option.map_eq_some_iff.mp keyed
    rfl

def transactionColumns : List (Column (Proto.Transaction Content)) :=
  [statusColumn fun transaction => transaction.metadata.map (·.transactionStatus),
    numberColumn fun transaction => transaction.transaction.map fun inner => inner.type.toNat]

def eventColumns : List (Column Proto.Event) :=
  [elementColumn fun event => event.fromAddress,
    elementColumn fun event => event.keys[0]?,
    elementColumn fun event => event.keys[1]?,
    elementColumn fun event => event.keys[2]?,
    elementColumn fun event => event.keys[3]?,
    numberColumn fun event => some event.keys.length,
    statusColumn fun event => some event.transactionStatus]

def messageColumns : List (Column Proto.MessageToL1) :=
  [elementColumn fun message => message.fromAddress,
    elementColumn fun message => message.toAddress,
    statusColumn fun message => some message.transactionStatus]

variable {α : Type}

theorem insertionSort_mapIdx {β : Type} (make : Nat → α → β) (number : β → Nat)
    (numbered : ∀ row item, number (make row item) = row) (items : List α) :
    (items.mapIdx make).insertionSort (fun left right => number left ≤ number right) = items.mapIdx make := by
  refine List.Pairwise.insertionSort_eq ?_
  rw [List.pairwise_iff_getElem]
  intro i j _ _ before
  rw [List.getElem_mapIdx, List.getElem_mapIdx, numbered, numbered]
  exact before.le

abbrev Part (α : Type) := List α × List BitmapIndexBuilder

namespace Part

/-- The body holds the messages of the items, and each builder is an index of it. -/
structure Holds {α β : Type} (part : Part β) (items : List α) (make : Nat → α → β)
    (columns : List (Column β)) : Prop where
  body : part.1 = items.mapIdx make
  index : BitmapIndexBuilder.AllIndex part.2 part.1 columns

def empty {β : Type} (columns : List (Column β)) : Part β := ([], columns.map fun _ => ∅)

theorem Holds.empty_of {β : Type} {part} {make : Nat → α → β} {columns} (isEmpty : part = empty columns) :
    Holds part [] make columns :=
  ⟨congrArg Prod.fst isEmpty, isEmpty ▸ BitmapIndexBuilder.AllIndex.empty columns⟩

def push {β : Type} (part : Part β) (columns : List (Column β)) (message : β) : Part β :=
  (part.1 ++ [message], BitmapIndexBuilder.insertAll part.2 columns message part.1.length)

theorem Holds.push {β : Type} {part : Part β} {items make columns} (holds : Holds part items make columns) (item : α) :
    Holds (part.push columns (make part.1.length item)) (items ++ [item]) make columns where
  body := by
    have sameLength : part.1.length = items.length := by rw [holds.body, List.length_mapIdx]
    rw [List.mapIdx_concat, ← holds.body, ← sameLength]
    rfl
  index := holds.index.push _

/-- A loop that pushes the message of every element to a part. -/
theorem Holds.foldl {σ ι β : Type} {make : Nat → α → β} {columns step} (observe : σ → Part β) (toItem : ι → α)
    (step_eq : ∀ state element, observe (step state element) =
      (observe state).push columns (make (observe state).1.length (toItem element))) {items} (state : σ)
    (holds : Holds (observe state) items make columns) (elements : List ι) :
    Holds (observe (elements.foldl step state)) (items ++ elements.map toItem) make columns := by
  induction elements generalizing items state with
  | nil => simpa using holds
  | cons element rest ih =>
    have pushed := holds.push (toItem element)
    rw [← step_eq] at pushed
    simpa using ih (step state element) pushed

/-- A filter on a part selects the items whose messages meet the conditions. -/
theorem Holds.filter_spec {β : Type} {part items} {make : Nat → α → β} {columns} (holds : Holds part items make columns)
    {fragment : IndexFragment} (start : fragment.rangeStart = 0) (len : fragment.rangeLen = part.1.length)
    (indexes : fragment.indexes.map (·.index) = part.2.map fun builder => .bitmap builder.build) (filter : Query.Filter)
    (known : ∀ condition ∈ filter.conditions, condition.indexId.toNat < columns.length) :
    ∃ rows, filter.filter fragment = .ok rows ∧ ∀ row, row ∈ rows ↔
      ∃ item, items[row]? = some item ∧ ∀ condition ∈ filter.conditions, condition.Holds columns (make row item) := by
  obtain ⟨rows, filtered, mem_rows⟩ :=
    Query.Filter.filter_spec (holds.index.describes start len indexes) filter known
  refine ⟨rows, filtered, fun row => ?_⟩
  rw [mem_rows, holds.body]
  simp only [List.getElem?_mapIdx, Option.map_eq_some_iff, ↓existsAndEq, and_true]

end Part

namespace Collected

def transactionBuilders (collected : Collected Content) : List BitmapIndexBuilder :=
  [collected.indexTransactionByStatus, collected.indexTransactionByType]

def eventBuilders (collected : Collected Content) : List BitmapIndexBuilder :=
  [collected.indexEventByAddress, collected.indexEventByKey0, collected.indexEventByKey1,
    collected.indexEventByKey2, collected.indexEventByKey3, collected.indexEventByKeyLength,
    collected.indexEventByTransactionStatus]

def messageBuilders (collected : Collected Content) : List BitmapIndexBuilder :=
  [collected.indexMessageByFromAddress, collected.indexMessageByToAddress,
    collected.indexMessageByTransactionStatus]

def transactionPart (collected : Collected Content) : Part (Proto.Transaction Content) :=
  (collected.blockTransactions, collected.transactionBuilders)

def eventPart (collected : Collected Content) : Part Proto.Event :=
  (collected.blockEvents, collected.eventBuilders)

def messagePart (collected : Collected Content) : Part Proto.MessageToL1 :=
  (collected.blockMessages, collected.messageBuilders)

/-- What the loops have established for the transactions seen so far. -/
structure Holds (collected : Collected Content) (seen : List (Model.TransactionWithReceipt Content)) : Prop where
  transactions : Part.Holds collected.transactionPart seen transactionAt transactionColumns
  receipts : collected.blockReceipts = seen.mapIdx receiptAt
  events : Part.Holds collected.eventPart (eventsOf seen) eventAt eventColumns
  messages : Part.Holds collected.messagePart (messagesOf seen) messageAt messageColumns

def refOf (item : Model.TransactionWithReceipt Content) (transactionIndex : Nat) : TransactionRef :=
  ⟨transactionIndex, toProto item.receipt.transactionHash, item.receipt.executionResult.status⟩

section
variable (item : Model.TransactionWithReceipt Content)
include item

theorem collectEvent_eventPart (transactionIndex : Nat) (state : Collected Content × List Nat)
    (event : Model.Event × Nat) :
    (collectEvent (refOf item transactionIndex) state event).1.eventPart =
      state.1.eventPart.push eventColumns
        (eventAt state.1.eventPart.1.length ⟨event.1, event.2, transactionIndex, item.receipt⟩) := rfl

theorem collectMessage_messagePart (transactionIndex : Nat) (state : Collected Content × List Nat)
    (message : Model.MsgToL1 × Nat) :
    (collectMessage (refOf item transactionIndex) state message).1.messagePart =
      state.1.messagePart.push messageColumns
        (messageAt state.1.messagePart.1.length ⟨message.1, message.2, transactionIndex, item.receipt⟩) := rfl

theorem pushTransaction_transactionPart (collected : Collected Content) :
    (collected.pushTransaction (refOf item collected.transactionPart.1.length) item).transactionPart =
      collected.transactionPart.push transactionColumns
        (transactionAt collected.transactionPart.1.length item) := rfl

end

theorem emitted_concat (select : Model.TransactionReceipt Content → List α)
    (transactions : List (Model.TransactionWithReceipt Content)) (item : Model.TransactionWithReceipt Content) :
    emitted select (transactions ++ [item]) =
      emitted select transactions ++ emittedBy select transactions.length item.receipt := by
  simp [Starknet.emitted, List.zipIdx_append]

theorem foldl_collectEvent_frame (ref : TransactionRef) (events : List (Model.Event × Nat))
    (state : Collected Content × List Nat) :
    (events.foldl (collectEvent ref) state).1.transactionPart = state.1.transactionPart ∧
      (events.foldl (collectEvent ref) state).1.blockReceipts = state.1.blockReceipts ∧
      (events.foldl (collectEvent ref) state).1.messagePart = state.1.messagePart := by
  induction events generalizing state with
  | nil => exact ⟨rfl, rfl, rfl⟩
  | cons event rest ih => exact ih (collectEvent ref state event)

theorem foldl_collectMessage_frame (ref : TransactionRef) (messages : List (Model.MsgToL1 × Nat))
    (state : Collected Content × List Nat) :
    (messages.foldl (collectMessage ref) state).1.transactionPart = state.1.transactionPart ∧
      (messages.foldl (collectMessage ref) state).1.blockReceipts = state.1.blockReceipts ∧
      (messages.foldl (collectMessage ref) state).1.eventPart = state.1.eventPart := by
  induction messages generalizing state with
  | nil => exact ⟨rfl, rfl, rfl⟩
  | cons message rest ih => exact ih (collectMessage ref state message)

/-- The bodies and indexes, which the loops over the joins leave alone. -/
def parts (collected : Collected Content) :=
  (collected.transactionPart, collected.blockReceipts, collected.eventPart, collected.messagePart)

theorem foldl_joinEvent_parts (eventIds messageIds ids : List Nat) (collected : Collected Content) :
    (ids.foldl (joinEvent eventIds messageIds) collected).parts = collected.parts :=
  foldl_unchanged (joinEvent eventIds messageIds) parts (fun _ _ => rfl) ids collected

theorem foldl_joinMessage_parts (messageIds ids : List Nat) (collected : Collected Content) :
    (ids.foldl (joinMessage messageIds) collected).parts = collected.parts :=
  foldl_unchanged (joinMessage messageIds) parts (fun _ _ => rfl) ids collected

/-- One turn of the loop over the transactions. -/
theorem Holds.step {collected : Collected Content} {seen} (holds : Holds collected seen)
    (item : Model.TransactionWithReceipt Content) :
    Holds (collected.collectTransaction (item, seen.length)) (seen ++ [item]) := by
  let ref := refOf item seen.length
  let withEvents := item.receipt.events.zipIdx.foldl (collectEvent ref) (collected, [])
  let withMessages := item.receipt.messagesSent.zipIdx.foldl (collectMessage ref) (withEvents.1, [])
  let withJoins := withEvents.2.foldl (joinEvent withEvents.2 withMessages.2) withMessages.1
  let withSiblings := withMessages.2.foldl (joinMessage withMessages.2) withJoins
  have result : collected.collectTransaction (item, seen.length) = withSiblings.pushTransaction ref item := rfl
  -- Each loop fills one part and leaves the other parts as they are.
  obtain ⟨eventsT, eventsR, eventsM⟩ : _ ∧ _ ∧ withEvents.1.messagePart = _ :=
    foldl_collectEvent_frame ref item.receipt.events.zipIdx (collected, [])
  obtain ⟨messagesT, messagesR, messagesE⟩ : _ ∧ _ ∧ withMessages.1.eventPart = _ :=
    foldl_collectMessage_frame ref item.receipt.messagesSent.zipIdx (withEvents.1, [])
  have joins : withSiblings.parts = withMessages.1.parts :=
    (foldl_joinMessage_parts _ _ withJoins).trans (foldl_joinEvent_parts _ _ _ withMessages.1)
  simp only [parts, Prod.mk.injEq] at joins
  obtain ⟨joinsT, joinsR, joinsE, joinsM⟩ := joins
  have eventsHold : Part.Holds withEvents.1.eventPart (eventsOf (seen ++ [item])) eventAt eventColumns := by
    rw [eventsOf, emitted_concat]
    exact Part.Holds.foldl (fun state => state.1.eventPart) _ (collectEvent_eventPart item seen.length)
      (collected, []) holds.events _
  have messagesHold :
      Part.Holds withMessages.1.messagePart (messagesOf (seen ++ [item])) messageAt messageColumns := by
    have before : Part.Holds withEvents.1.messagePart (messagesOf seen) messageAt messageColumns := by
      rw [eventsM]
      exact holds.messages
    rw [messagesOf, emitted_concat]
    exact Part.Holds.foldl (fun state => state.1.messagePart) _ (collectMessage_messagePart item seen.length)
      (withEvents.1, []) before _
  have transactionsHold : Part.Holds withSiblings.transactionPart seen transactionAt transactionColumns := by
    rw [joinsT, messagesT, eventsT]
    exact holds.transactions
  have receiptsHold : withSiblings.blockReceipts = seen.mapIdx receiptAt := by
    rw [joinsR, messagesR, eventsR]
    exact holds.receipts
  rw [result]
  refine ⟨?_, ?_, ?_, ?_⟩
  · have count : withSiblings.transactionPart.1.length = seen.length := by
      rw [transactionsHold.body, List.length_mapIdx]
    have pushed := transactionsHold.push item
    rw [← pushTransaction_transactionPart, count] at pushed
    exact pushed
  · rw [List.mapIdx_concat, ← receiptsHold]
    rfl
  · exact joinsE ▸ messagesE ▸ eventsHold
  · exact joinsM ▸ messagesHold

theorem foldl_collectTrace_parts (traces : List (Model.TransactionTraceWithHash Content))
    (collected : Collected Content) : (traces.foldl collectTrace collected).parts = collected.parts :=
  foldl_unchanged collectTrace parts (fun _ _ => rfl) traces collected

theorem collect_concat (seen : List (Model.TransactionWithReceipt Content)) (item : Model.TransactionWithReceipt Content)
    (traces : List (Model.TransactionTraceWithHash Content)) :
    collect (seen ++ [item]) traces = (collect seen traces).collectTransaction (item, seen.length) := by
  simp [collect, List.zipIdx_append]

variable (transactions : List (Model.TransactionWithReceipt Content))
  (traces : List (Model.TransactionTraceWithHash Content))
include transactions traces

/-- What the loops have established at the end. -/
theorem collect_holds : Holds (collect transactions traces) transactions := by
  induction transactions using List.reverseRecOn with
  | nil =>
    have start := foldl_collectTrace_parts traces {}
    simp only [parts, Prod.mk.injEq] at start
    obtain ⟨startT, startR, startE, startM⟩ := start
    exact ⟨.empty_of startT, startR, .empty_of startE, .empty_of startM⟩
  | append_singleton seen item ih =>
    rw [collect_concat]
    exact ih.step item

/-- The bodies are in the order of their numbers before they are sorted. -/
theorem sort_collect : (collect transactions traces).sort = collect transactions traces := by
  have holds := collect_holds transactions traces
  have eventsBody : (collect transactions traces).blockEvents = _ := holds.events.body
  have messagesBody : (collect transactions traces).blockMessages = _ := holds.messages.body
  have transactionsBody : (collect transactions traces).blockTransactions = _ := holds.transactions.body
  have receiptsBody := holds.receipts
  generalize collect transactions traces = collected at *
  cases collected
  simp only at eventsBody messagesBody transactionsBody receiptsBody
  subst eventsBody messagesBody transactionsBody receiptsBody
  simp only [sort, mk.injEq, and_true]
  refine ⟨insertionSort_mapIdx _ _ (fun _ _ => rfl) _, insertionSort_mapIdx _ _ (fun _ _ => rfl) _,
    insertionSort_mapIdx _ _ (fun _ _ => rfl) _, insertionSort_mapIdx _ _ (fun _ _ => rfl) _⟩

end Collected

/-- A contract change of a state update, from one of the four lists. -/
inductive ContractChangeItem where
  | deprecatedDeclaredClass (classHash : Felt)
  | declaredClass (item : Model.DeclaredClassItem)
  | replacedClass (item : Model.ReplacedClassItem)
  | deployedContract (item : Model.DeployedContractItem)

namespace ContractChangeItem

def toProto : ContractChangeItem → Proto.ContractChange
  | deprecatedDeclaredClass classHash => ⟨some (.declaredClass (some (Starknet.toProto classHash)) none)⟩
  | declaredClass item => ⟨some item.toProto⟩
  | replacedClass item => ⟨some item.toProto⟩
  | deployedContract item => ⟨some item.toProto⟩

end ContractChangeItem

/-- The contract changes of a state update, in the order of the fragment. -/
def contractChangesOf (stateDiff : Model.StateDiff) : List ContractChangeItem :=
  stateDiff.deprecatedDeclaredClasses.map .deprecatedDeclaredClass ++
    stateDiff.declaredClasses.map .declaredClass ++
    stateDiff.replacedClasses.map .replacedClass ++
    stateDiff.deployedContracts.map .deployedContract

def Proto.Change.type : Proto.Change → ContractChangeType
  | declaredClass _ _ => .declaredClass
  | replacedClass _ _ => .replaced
  | deployedContract _ _ => .deployed

def storageDiffColumns : List (Column Proto.StorageDiff) := [elementColumn fun diff => diff.contractAddress]

def contractChangeColumns : List (Column Proto.ContractChange) :=
  [numberColumn fun change => change.change.map fun change => change.type.toNat]

def nonceUpdateColumns : List (Column Proto.NonceUpdate) := [elementColumn fun update => update.contractAddress]

namespace CollectedState

def storageDiffPart (collected : CollectedState) : Part Proto.StorageDiff :=
  (collected.blockStorageDiffs, [collected.indexStorageDiffByContractAddress])

def contractChangePart (collected : CollectedState) : Part Proto.ContractChange :=
  (collected.blockContractChanges, [collected.indexContractChangeByType])

def nonceUpdatePart (collected : CollectedState) : Part Proto.NonceUpdate :=
  (collected.blockNonceUpdates, [collected.indexNonceUpdateByContractAddress])

variable {collected : CollectedState}

theorem foldl_contractChanges {ι : Type} (step : CollectedState → ι → CollectedState) (toItem : ι → ContractChangeItem)
    (change : ι → Proto.Change) (isStep : ∀ collected element,
      step collected element = collected.collectContractChange (change element).type (change element))
    (message : ∀ element, (toItem element).toProto = ⟨some (change element)⟩) {items}
    (holds : Part.Holds collected.contractChangePart items (fun _ => ContractChangeItem.toProto)
      contractChangeColumns) (elements : List ι) :
    Part.Holds (elements.foldl step collected).contractChangePart (items ++ elements.map toItem)
        (fun _ => ContractChangeItem.toProto) contractChangeColumns ∧
      (elements.foldl step collected).storageDiffPart = collected.storageDiffPart ∧
      (elements.foldl step collected).nonceUpdatePart = collected.nonceUpdatePart := by
  refine ⟨Part.Holds.foldl contractChangePart toItem ?_ collected holds elements, ?_⟩
  · intro state element
    rw [isStep, message]
    rfl
  · clear holds
    induction elements generalizing collected with
    | nil => exact ⟨rfl, rfl⟩
    | cons element rest ih =>
      rw [List.foldl_cons, isStep]
      exact ih

/-- What the loops over a state update have established at the end. -/
structure Holds (collected : CollectedState) (stateDiff : Model.StateDiff) : Prop where
  storageDiffs : Part.Holds collected.storageDiffPart stateDiff.storageDiffs
    (fun _ => Model.ContractStorageDiffItem.toProto) storageDiffColumns
  contractChanges : Part.Holds collected.contractChangePart (contractChangesOf stateDiff)
    (fun _ => ContractChangeItem.toProto) contractChangeColumns
  nonceUpdates : Part.Holds collected.nonceUpdatePart stateDiff.nonces
    (fun _ => Model.NonceUpdate.toProto) nonceUpdateColumns

theorem foldl_collectStorageDiff_frame (items : List Model.ContractStorageDiffItem) (collected : CollectedState) :
    (items.foldl collectStorageDiff collected).contractChangePart = collected.contractChangePart ∧
      (items.foldl collectStorageDiff collected).nonceUpdatePart = collected.nonceUpdatePart := by
  induction items generalizing collected with
  | nil => exact ⟨rfl, rfl⟩
  | cons item rest ih => exact ih (collected.collectStorageDiff item)

theorem foldl_collectNonceUpdate_frame (updates : List Model.NonceUpdate) (collected : CollectedState) :
    (updates.foldl collectNonceUpdate collected).storageDiffPart = collected.storageDiffPart ∧
      (updates.foldl collectNonceUpdate collected).contractChangePart = collected.contractChangePart := by
  induction updates generalizing collected with
  | nil => exact ⟨rfl, rfl⟩
  | cons update rest ih => exact ih (collected.collectNonceUpdate update)

theorem foldl_collectStorageDiff (start : collected.storageDiffPart = Part.empty storageDiffColumns)
    (items : List Model.ContractStorageDiffItem) :
    Part.Holds (items.foldl collectStorageDiff collected).storageDiffPart items
      (fun _ => Model.ContractStorageDiffItem.toProto) storageDiffColumns := by
  have pushed : ∀ (state : CollectedState) (item : Model.ContractStorageDiffItem),
      (state.collectStorageDiff item).storageDiffPart =
        state.storageDiffPart.push storageDiffColumns (id item).toProto := fun _ _ => rfl
  simpa using Part.Holds.foldl storageDiffPart id pushed collected (.empty_of start) items

theorem foldl_collectNonceUpdate (start : collected.nonceUpdatePart = Part.empty nonceUpdateColumns)
    (updates : List Model.NonceUpdate) :
    Part.Holds (updates.foldl collectNonceUpdate collected).nonceUpdatePart updates
      (fun _ => Model.NonceUpdate.toProto) nonceUpdateColumns := by
  have pushed : ∀ (state : CollectedState) (update : Model.NonceUpdate),
      (state.collectNonceUpdate update).nonceUpdatePart =
        state.nonceUpdatePart.push nonceUpdateColumns (id update).toProto := fun _ _ => rfl
  simpa using Part.Holds.foldl nonceUpdatePart id pushed collected (.empty_of start) updates

theorem collect_holds (stateDiff : Model.StateDiff) : Holds (collect stateDiff) stateDiff := by
  let afterStorage := stateDiff.storageDiffs.foldl collectStorageDiff {}
  obtain ⟨changes0, nonces0⟩ : afterStorage.contractChangePart = _ ∧ _ :=
    foldl_collectStorageDiff_frame stateDiff.storageDiffs {}
  obtain ⟨deprecated, storage1, nonces1⟩ := foldl_contractChanges collectDeprecatedDeclaredClass
    .deprecatedDeclaredClass (fun classHash => .declaredClass (some (toProto classHash)) none)
    (fun _ _ => rfl) (fun _ => rfl) (.empty_of changes0) stateDiff.deprecatedDeclaredClasses
  obtain ⟨declared, storage2, nonces2⟩ := foldl_contractChanges collectDeclaredClass .declaredClass
    Model.DeclaredClassItem.toProto (fun _ _ => rfl) (fun _ => rfl) deprecated stateDiff.declaredClasses
  obtain ⟨replaced, storage3, nonces3⟩ := foldl_contractChanges collectReplacedClass .replacedClass
    Model.ReplacedClassItem.toProto (fun _ _ => rfl) (fun _ => rfl) declared stateDiff.replacedClasses
  obtain ⟨deployed, storage4, nonces4⟩ := foldl_contractChanges collectDeployedContract .deployedContract
    Model.DeployedContractItem.toProto (fun _ _ => rfl) (fun _ => rfl) replaced stateDiff.deployedContracts
  obtain ⟨storage5, changes5⟩ := foldl_collectNonceUpdate_frame stateDiff.nonces
    (stateDiff.deployedContracts.foldl collectDeployedContract (stateDiff.replacedClasses.foldl collectReplacedClass
      (stateDiff.declaredClasses.foldl collectDeclaredClass
        (stateDiff.deprecatedDeclaredClasses.foldl collectDeprecatedDeclaredClass afterStorage))))
  have sameStorage : (collect stateDiff).storageDiffPart = afterStorage.storageDiffPart :=
    storage5.trans (storage4.trans (storage3.trans (storage2.trans storage1)))
  refine ⟨?_, ?_, foldl_collectNonceUpdate ?_ stateDiff.nonces⟩
  · rw [sameStorage]
    exact foldl_collectStorageDiff rfl stateDiff.storageDiffs
  · exact changes5 ▸ deployed
  · exact nonces4.trans (nonces3.trans (nonces2.trans (nonces1.trans nonces0)))

end CollectedState

end Starkstream.Starknet
