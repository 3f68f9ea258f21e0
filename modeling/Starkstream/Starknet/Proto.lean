import Starkstream.Provider.HeadCursor
import Starkstream.Query.Index

/-! # Starknet data and its messages

The data the provider returns (`Model`) and the protobuf messages it is turned
into (`Proto`).  What a transaction, a receipt or a trace holds besides the
fields read here only matters for its encoding; it is of the type `Content`.
The `filter_ids` of a message are empty in what is stored and left out.
-/

namespace Starkstream

def Felt.ofByte (byte : UInt8) : Felt := ⟨byte.toNat, byte.toNat_lt.trans (by norm_num)⟩

end Starkstream

namespace Starkstream.Starknet

/-- A field element as four limbs, the first one the most significant. -/
structure FieldElement where
  x0 : UInt64
  x1 : UInt64
  x2 : UInt64
  x3 : UInt64
  deriving DecidableEq

namespace FieldElement

def fromBytes (bytes : List UInt8) : FieldElement :=
  let limb start := UInt64.ofNat (BigEndian.ofBytes ((bytes.drop start).take 8))
  ⟨limb 0, limb 8, limb 16, limb 24⟩

def toBytes (element : FieldElement) : List UInt8 :=
  BigEndian.toBytes 8 element.x0.toNat ++ BigEndian.toBytes 8 element.x1.toNat ++
    BigEndian.toBytes 8 element.x2.toNat ++ BigEndian.toBytes 8 element.x3.toNat

def toScalarValue (element : FieldElement) : ScalarValue := .b256 element.toBytes

theorem toBytes_injective : Function.Injective toBytes := by
  intro left right same
  have limb : ∀ x y : UInt64, BigEndian.toBytes 8 x.toNat = BigEndian.toBytes 8 y.toNat → x = y := by
    intro x y sameBytes
    have sameNumber := congrArg BigEndian.ofBytes sameBytes
    rw [BigEndian.ofBytes_toBytes x.toNat_lt, BigEndian.ofBytes_toBytes y.toNat_lt] at sameNumber
    exact UInt64.toNat_inj.mp sameNumber
  obtain ⟨sameInit, same3⟩ := List.append_inj' same (by simp)
  obtain ⟨sameFirst, same2⟩ := List.append_inj' sameInit (by simp)
  obtain ⟨same0, same1⟩ := List.append_inj' sameFirst (by simp)
  cases left
  cases right
  simp only [FieldElement.mk.injEq]
  exact ⟨limb _ _ same0, limb _ _ same1, limb _ _ same2, limb _ _ same3⟩

/-- The limbs of an element are its bytes, eight at a time. -/
theorem toBytes_fromBytes {bytes : List UInt8} (length : bytes.length = 32) : (fromBytes bytes).toBytes = bytes := by
  have last : (bytes.drop 24).take 8 = bytes.drop 24 := List.take_of_length_le (by rw [List.length_drop]; omega)
  rw [toBytes, fromBytes, BigEndian.toBytes_limb (by omega), BigEndian.toBytes_limb (by omega),
    BigEndian.toBytes_limb (by omega), BigEndian.toBytes_limb (by omega), last, List.append_assoc, List.append_assoc,
    BigEndian.take_append_drop_add, BigEndian.take_append_drop_add, BigEndian.take_append_drop_add, List.drop_zero]

@[simp] theorem toScalarValue_inj {left right : FieldElement} :
    left.toScalarValue = right.toScalarValue ↔ left = right := by
  constructor
  · intro same
    exact toBytes_injective (ScalarValue.b256.inj same)
  · exact congrArg toScalarValue

end FieldElement

def u32Max : Nat := 2 ^ 32 - 1

inductive TransactionStatus where
  | unspecified
  | succeeded
  | reverted
  deriving DecidableEq

/-- `as i32`. -/
def TransactionStatus.toInt : TransactionStatus → Int
  | unspecified => 0
  | succeeded => 1
  | reverted => 2

namespace Model

structure Event where
  fromAddress : Felt
  keys : List Felt
  data : List Felt

structure MsgToL1 where
  fromAddress : Felt
  toAddress : Felt
  payload : List Felt

inductive ExecutionResult where
  | succeeded
  | reverted (reason : String)
  deriving DecidableEq

section
variable (Content : Type)

inductive InvokeTransactionContent where
  | v0 (content : Content)
  | v1 (content : Content)
  | v3 (content : Content)

inductive DeclareTransactionContent where
  | v0 (content : Content)
  | v1 (content : Content)
  | v2 (content : Content)
  | v3 (content : Content)

inductive DeployAccountTransactionContent where
  | v1 (content : Content)
  | v3 (content : Content)

inductive TransactionContent where
  | invoke (content : InvokeTransactionContent Content)
  | l1Handler (content : Content)
  | declare (content : DeclareTransactionContent Content)
  | deploy (content : Content)
  | deployAccount (content : DeployAccountTransactionContent Content)

/-- The fields that receipts of every type have. -/
structure ReceiptFields where
  transactionHash : Felt
  messagesSent : List MsgToL1
  events : List Event
  executionResult : ExecutionResult
  content : Content

inductive TransactionReceipt where
  | invoke (fields : ReceiptFields Content)
  | l1Handler (fields : ReceiptFields Content)
  | declare (fields : ReceiptFields Content)
  | deploy (fields : ReceiptFields Content)
  | deployAccount (fields : ReceiptFields Content)

structure TransactionWithReceipt where
  transaction : TransactionContent Content
  receipt : TransactionReceipt Content

structure TransactionTraceWithHash where
  transactionHash : Felt
  traceRoot : Content

end

namespace TransactionReceipt

variable {Content : Type}

def fields : TransactionReceipt Content → ReceiptFields Content
  | invoke fields | l1Handler fields | declare fields | deploy fields | deployAccount fields => fields

def transactionHash (receipt : TransactionReceipt Content) : Felt := receipt.fields.transactionHash

def executionResult (receipt : TransactionReceipt Content) : ExecutionResult := receipt.fields.executionResult

def events (receipt : TransactionReceipt Content) : List Event := receipt.fields.events

def messagesSent (receipt : TransactionReceipt Content) : List MsgToL1 := receipt.fields.messagesSent

end TransactionReceipt

def ExecutionResult.status : ExecutionResult → TransactionStatus
  | succeeded => .succeeded
  | reverted _ => .reverted

structure StorageEntry where
  key : Felt
  value : Felt

structure ContractStorageDiffItem where
  address : Felt
  storageEntries : List StorageEntry

structure DeclaredClassItem where
  classHash : Felt
  compiledClassHash : Felt

structure ReplacedClassItem where
  contractAddress : Felt
  classHash : Felt

structure DeployedContractItem where
  address : Felt
  classHash : Felt

structure NonceUpdate where
  contractAddress : Felt
  nonce : Felt

structure StateDiff where
  storageDiffs : List ContractStorageDiffItem
  deprecatedDeclaredClasses : List Felt
  declaredClasses : List DeclaredClassItem
  deployedContracts : List DeployedContractItem
  replacedClasses : List ReplacedClassItem
  nonces : List NonceUpdate

end Model

namespace Proto

structure Event where
  fromAddress : Option FieldElement
  keys : List FieldElement
  data : List FieldElement
  eventIndex : Nat
  transactionIndex : Nat
  transactionHash : Option FieldElement
  transactionStatus : Int
  eventIndexInTransaction : Nat

structure MessageToL1 where
  fromAddress : Option FieldElement
  toAddress : Option FieldElement
  payload : List FieldElement
  messageIndex : Nat
  transactionIndex : Nat
  transactionHash : Option FieldElement
  transactionStatus : Int
  messageIndexInTransaction : Nat

structure TransactionMeta where
  transactionHash : Option FieldElement
  transactionIndex : Nat
  transactionStatus : Int

section
variable (Content : Type)

inductive TransactionInner where
  | invokeV0 (content : Content)
  | invokeV1 (content : Content)
  | invokeV3 (content : Content)
  | l1Handler (content : Content)
  | deploy (content : Content)
  | declareV0 (content : Content)
  | declareV1 (content : Content)
  | declareV2 (content : Content)
  | declareV3 (content : Content)
  | deployAccountV1 (content : Content)
  | deployAccountV3 (content : Content)

structure Transaction where
  metadata : Option TransactionMeta
  transaction : Option (TransactionInner Content)

structure TransactionReceiptMeta where
  transactionIndex : Nat
  transactionHash : Option FieldElement
  content : Content

inductive ReceiptInner where
  | invoke
  | l1Handler
  | declare
  | deploy
  | deployAccount

structure TransactionReceipt where
  metadata : Option (TransactionReceiptMeta Content)
  receipt : Option ReceiptInner

structure TransactionTrace where
  transactionIndex : Nat
  transactionHash : Option FieldElement
  traceRoot : Option Content

end

structure StorageEntry where
  key : Option FieldElement
  value : Option FieldElement

structure StorageDiff where
  contractAddress : Option FieldElement
  storageEntries : List StorageEntry

inductive Change where
  | declaredClass (classHash compiledClassHash : Option FieldElement)
  | replacedClass (contractAddress classHash : Option FieldElement)
  | deployedContract (contractAddress classHash : Option FieldElement)

structure ContractChange where
  change : Option Change

structure NonceUpdate where
  contractAddress : Option FieldElement
  nonce : Option FieldElement

end Proto

def toProto (felt : Felt) : FieldElement := FieldElement.fromBytes felt.toBytesBe

theorem toBytesBe_injective : Function.Injective Felt.toBytesBe := by
  intro left right same
  have fits : ∀ felt : Felt, felt.value < 256 ^ 32 := fun felt => felt.reduced.trans (by norm_num)
  have sameValue := congrArg BigEndian.ofBytes same
  rw [Felt.toBytesBe, Felt.toBytesBe, BigEndian.ofBytes_toBytes (fits left),
    BigEndian.ofBytes_toBytes (fits right)] at sameValue
  cases left
  cases right
  cases sameValue
  rfl

/-- A message has the bytes of the element. -/
theorem toBytes_toProto (felt : Felt) : (toProto felt).toBytes = felt.toBytesBe :=
  FieldElement.toBytes_fromBytes (BigEndian.toBytes_length 32 felt.value)

theorem toProto_injective : Function.Injective toProto := by
  intro left right same
  have sameBytes := congrArg FieldElement.toBytes same
  rw [toBytes_toProto, toBytes_toProto] at sameBytes
  exact toBytesBe_injective sameBytes

namespace Model

def Event.toProto (event : Event) : Proto.Event where
  fromAddress := some (Starknet.toProto event.fromAddress)
  keys := event.keys.map Starknet.toProto
  data := event.data.map Starknet.toProto
  eventIndex := u32Max
  transactionIndex := u32Max
  transactionHash := none
  transactionStatus := 0
  eventIndexInTransaction := u32Max

def MsgToL1.toProto (message : MsgToL1) : Proto.MessageToL1 where
  fromAddress := some (Starknet.toProto message.fromAddress)
  toAddress := some (Starknet.toProto message.toAddress)
  payload := message.payload.map Starknet.toProto
  messageIndex := u32Max
  transactionIndex := u32Max
  transactionHash := none
  transactionStatus := 0
  messageIndexInTransaction := u32Max

section
variable {Content : Type}

def TransactionContent.inner : TransactionContent Content → Proto.TransactionInner Content
  | invoke (.v0 content) => .invokeV0 content
  | invoke (.v1 content) => .invokeV1 content
  | invoke (.v3 content) => .invokeV3 content
  | l1Handler content => .l1Handler content
  | declare (.v0 content) => .declareV0 content
  | declare (.v1 content) => .declareV1 content
  | declare (.v2 content) => .declareV2 content
  | declare (.v3 content) => .declareV3 content
  | deploy content => .deploy content
  | deployAccount (.v1 content) => .deployAccountV1 content
  | deployAccount (.v3 content) => .deployAccountV3 content

/-- All versions start with the same placeholder metadata. -/
def TransactionContent.toProto (content : TransactionContent Content) : Proto.Transaction Content where
  metadata := some ⟨none, u32Max, 0⟩
  transaction := some content.inner

def TransactionReceipt.inner : TransactionReceipt Content → Proto.ReceiptInner
  | invoke _ => .invoke
  | l1Handler _ => .l1Handler
  | declare _ => .declare
  | deploy _ => .deploy
  | deployAccount _ => .deployAccount

def TransactionReceipt.toProto (receipt : TransactionReceipt Content) : Proto.TransactionReceipt Content where
  metadata := some ⟨u32Max, some (Starknet.toProto receipt.transactionHash), receipt.fields.content⟩
  receipt := some receipt.inner

def TransactionTraceWithHash.toProto (trace : TransactionTraceWithHash Content) : Proto.TransactionTrace Content where
  transactionIndex := u32Max
  transactionHash := some (Starknet.toProto trace.transactionHash)
  traceRoot := some trace.traceRoot

end

def StorageEntry.toProto (entry : StorageEntry) : Proto.StorageEntry where
  key := some (Starknet.toProto entry.key)
  value := some (Starknet.toProto entry.value)

def ContractStorageDiffItem.toProto (item : ContractStorageDiffItem) : Proto.StorageDiff where
  contractAddress := some (Starknet.toProto item.address)
  storageEntries := item.storageEntries.map StorageEntry.toProto

def DeclaredClassItem.toProto (item : DeclaredClassItem) : Proto.Change :=
  .declaredClass (some (Starknet.toProto item.classHash)) (some (Starknet.toProto item.compiledClassHash))

def ReplacedClassItem.toProto (item : ReplacedClassItem) : Proto.Change :=
  .replacedClass (some (Starknet.toProto item.contractAddress)) (some (Starknet.toProto item.classHash))

def DeployedContractItem.toProto (item : DeployedContractItem) : Proto.Change :=
  .deployedContract (some (Starknet.toProto item.address)) (some (Starknet.toProto item.classHash))

def NonceUpdate.toProto (update : NonceUpdate) : Proto.NonceUpdate where
  contractAddress := some (Starknet.toProto update.contractAddress)
  nonce := some (Starknet.toProto update.nonce)

end Model

end Starkstream.Starknet
