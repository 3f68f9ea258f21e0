import Starkstream.Query.Filter
import Starkstream.Starknet.Ingestion

/-! # Compiling Starknet filters

Every filter message of a client is compiled to conditions on the indexes of one
fragment.  Enumerations arrive as plain integers; a status that is not one of
the enumeration is rejected.
-/

namespace Starkstream.Starknet

/-- The error that is returned to the client. -/
inductive Status where
  | invalidArgument (message : String)
  deriving DecidableEq

inductive TransactionStatusFilter where
  | unspecified
  | succeeded
  | reverted
  | all
  deriving DecidableEq

namespace TransactionStatusFilter

def tryFrom (value : Int) : Option TransactionStatusFilter :=
  if value = 0 then some unspecified
  else if value = 1 then some succeeded
  else if value = 2 then some reverted
  else if value = 3 then some all
  else none

/-- The condition on the index of transaction statuses. -/
def conditions (indexId : IndexId) : TransactionStatusFilter → List Query.Condition
  | unspecified => []
  | all => []
  | succeeded => [⟨indexId, TransactionStatus.succeeded.toScalarValue⟩]
  | reverted => [⟨indexId, TransactionStatus.reverted.toScalarValue⟩]

/-- Filters that look at the status of the transaction: what is missing means succeeded. -/
def parse (kind : String) (id : Nat) (transactionStatus : Option Int) :
    Except Status TransactionStatusFilter :=
  match transactionStatus with
  | some status =>
    match tryFrom status with
    | some status => .ok status
    | none =>
      .error (.invalidArgument
        ("invalid transaction status in " ++ kind ++ " filter with id " ++ toString id))
  | none => .ok succeeded

end TransactionStatusFilter

def conditionOn (indexId : IndexId) (element : Option FieldElement) : List Query.Condition :=
  (element.map fun element => ⟨indexId, element.toScalarValue⟩).toList

def joinIf (included : Option Bool) (fragmentId : FragmentId) : List FragmentId :=
  if included = some true then [fragmentId] else []

structure Key where
  value : Option FieldElement
  deriving DecidableEq

structure EventFilter where
  id : Nat
  address : Option FieldElement := none
  keys : List Key := []
  strict : Option Bool := none
  transactionStatus : Option Int := none
  includeTransaction : Option Bool := none
  includeReceipt : Option Bool := none
  includeMessages : Option Bool := none
  includeSiblings : Option Bool := none
  includeTransactionTrace : Option Bool := none

namespace EventFilter

def keyAt (filter : EventFilter) (position : Nat) : Option FieldElement :=
  filter.keys[position]?.bind (·.value)

def strictConditions (filter : EventFilter) : List Query.Condition :=
  if filter.strict = some true then [⟨Fragment.indexEventByKeyLength, .uint32 filter.keys.length⟩] else []

def compileToFilter (filter : EventFilter) : Except Status Query.Filter := do
  let status ← TransactionStatusFilter.parse "event" filter.id filter.transactionStatus
  return {
    filterId := filter.id
    fragmentId := Fragment.eventFragmentId
    conditions :=
      conditionOn Fragment.indexEventByAddress filter.address ++ filter.strictConditions ++
        conditionOn Fragment.indexEventByKey0 (filter.keyAt 0) ++
        conditionOn Fragment.indexEventByKey1 (filter.keyAt 1) ++
        conditionOn Fragment.indexEventByKey2 (filter.keyAt 2) ++
        conditionOn Fragment.indexEventByKey3 (filter.keyAt 3) ++
        status.conditions Fragment.indexEventByTransactionStatus
    joins :=
      joinIf filter.includeTransaction Fragment.transactionFragmentId ++
        joinIf filter.includeReceipt Fragment.receiptFragmentId ++
        joinIf filter.includeMessages Fragment.messageFragmentId ++
        joinIf filter.includeSiblings Fragment.eventFragmentId ++
        joinIf filter.includeTransactionTrace Fragment.traceFragmentId }

end EventFilter

structure MessageToL1Filter where
  id : Nat
  fromAddress : Option FieldElement := none
  toAddress : Option FieldElement := none
  transactionStatus : Option Int := none
  includeTransaction : Option Bool := none
  includeReceipt : Option Bool := none
  includeEvents : Option Bool := none
  includeSiblings : Option Bool := none
  includeTransactionTrace : Option Bool := none

def MessageToL1Filter.compileToFilter (filter : MessageToL1Filter) : Except Status Query.Filter := do
  let status ← TransactionStatusFilter.parse "message" filter.id filter.transactionStatus
  return {
    filterId := filter.id
    fragmentId := Fragment.messageFragmentId
    conditions :=
      conditionOn Fragment.indexMessageByFromAddress filter.fromAddress ++
        conditionOn Fragment.indexMessageByToAddress filter.toAddress ++
        status.conditions Fragment.indexMessageByTransactionStatus
    joins :=
      joinIf filter.includeTransaction Fragment.transactionFragmentId ++
        joinIf filter.includeReceipt Fragment.receiptFragmentId ++
        joinIf filter.includeEvents Fragment.eventFragmentId ++
        joinIf filter.includeSiblings Fragment.messageFragmentId ++
        joinIf filter.includeTransactionTrace Fragment.traceFragmentId }

/-- The variants carry empty messages. -/
inductive TransactionFilter.Inner where
  | invokeV0
  | invokeV1
  | invokeV3
  | deploy
  | declareV0
  | declareV1
  | declareV2
  | declareV3
  | l1Handler
  | deployAccountV1
  | deployAccountV3
  deriving DecidableEq

def TransactionFilter.Inner.type : TransactionFilter.Inner → TransactionType
  | invokeV0 => .invokeV0
  | invokeV1 => .invokeV1
  | invokeV3 => .invokeV3
  | deploy => .deploy
  | declareV0 => .declareV0
  | declareV1 => .declareV1
  | declareV2 => .declareV2
  | declareV3 => .declareV3
  | l1Handler => .l1Handler
  | deployAccountV1 => .deployAccountV1
  | deployAccountV3 => .deployAccountV3

structure TransactionFilter where
  id : Nat
  transactionStatus : Option Int := none
  includeReceipt : Option Bool := none
  includeEvents : Option Bool := none
  includeMessages : Option Bool := none
  includeTrace : Option Bool := none
  inner : Option TransactionFilter.Inner := none

def TransactionFilter.compileToFilter (filter : TransactionFilter) : Except Status Query.Filter := do
  let status ← TransactionStatusFilter.parse "transaction" filter.id filter.transactionStatus
  return {
    filterId := filter.id
    fragmentId := Fragment.transactionFragmentId
    conditions :=
      status.conditions Fragment.indexTransactionByStatus ++
        (filter.inner.map fun inner => ⟨Fragment.indexTransactionByType, inner.type.toScalarValue⟩).toList
    joins :=
      joinIf filter.includeReceipt Fragment.receiptFragmentId ++
        joinIf filter.includeEvents Fragment.eventFragmentId ++
        joinIf filter.includeMessages Fragment.messageFragmentId ++
        joinIf filter.includeTrace Fragment.traceFragmentId }

structure StorageDiffFilter where
  id : Nat
  contractAddress : Option FieldElement := none

def StorageDiffFilter.compileToFilter (filter : StorageDiffFilter) : Except Status Query.Filter :=
  .ok {
    filterId := filter.id
    fragmentId := Fragment.storageDiffFragmentId
    conditions := conditionOn Fragment.indexStorageDiffByContractAddress filter.contractAddress
    joins := [] }

inductive ContractChangeFilter.Change where
  | declaredClass
  | replacedClass
  | deployedContract
  deriving DecidableEq

structure ContractChangeFilter where
  id : Nat
  change : Option ContractChangeFilter.Change := none

def ContractChangeFilter.Change.type : ContractChangeFilter.Change → ContractChangeType
  | declaredClass => .declaredClass
  | deployedContract => .deployed
  | replacedClass => .replaced

def ContractChangeFilter.compileToFilter (filter : ContractChangeFilter) : Except Status Query.Filter :=
  .ok {
    filterId := filter.id
    fragmentId := Fragment.contractChangeFragmentId
    conditions :=
      (filter.change.map fun change => ⟨Fragment.indexContractChangeByType, change.type.toScalarValue⟩).toList
    joins := [] }

structure NonceUpdateFilter where
  id : Nat
  contractAddress : Option FieldElement := none

def NonceUpdateFilter.compileToFilter (filter : NonceUpdateFilter) : Except Status Query.Filter :=
  .ok {
    filterId := filter.id
    fragmentId := Fragment.nonceUpdateFragmentId
    conditions := conditionOn Fragment.indexNonceUpdateByContractAddress filter.contractAddress
    joins := [] }

end Starkstream.Starknet
