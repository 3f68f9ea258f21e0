import Starkstream.Starknet.Rows

/-! # From the data of a node to messages

Headers and transactions with all the fields that the schema of the messages has:
the types of the node (`Rpc`), the messages (`Proto`) and the functions between
them.  What a conversion keeps is said by a reader that takes every field of a
message for the field of the same name.

The loops over a block look at no field of a transaction besides its type.  They are
written over any type of contents, with the messages here as one of them.
-/

namespace Starkstream.Starknet

/-! ## The types of the node -/

namespace Rpc

abbrev U128 := BitVec 128

structure ResourcePrice where
  priceInFri : Felt
  priceInWei : Felt

inductive L1DataAvailabilityMode where
  | blob
  | calldata

inductive DataAvailabilityMode where
  | l1
  | l2

structure ResourceBounds where
  maxAmount : UInt64
  maxPricePerUnit : U128

structure ResourceBoundsMapping where
  l1Gas : ResourceBounds
  l2Gas : ResourceBounds

/-- The header of an accepted block. -/
structure BlockWithReceipts where
  blockHash : Felt
  parentHash : Felt
  blockNumber : UInt64
  newRoot : Felt
  timestamp : UInt64
  sequencerAddress : Felt
  l1GasPrice : ResourcePrice
  l2GasPrice : ResourcePrice
  l1DataGasPrice : ResourcePrice
  l1DaMode : L1DataAvailabilityMode
  starknetVersion : String

/-- The header of a block that has no hash yet. -/
structure PreConfirmedBlockWithReceipts where
  blockNumber : UInt64
  timestamp : UInt64
  sequencerAddress : Felt
  l1GasPrice : ResourcePrice
  l2GasPrice : ResourcePrice
  l1DataGasPrice : ResourcePrice
  l1DaMode : L1DataAvailabilityMode
  starknetVersion : String

structure InvokeTransactionV0Content where
  maxFee : Felt
  signature : List Felt
  contractAddress : Felt
  entryPointSelector : Felt
  calldata : List Felt

structure InvokeTransactionV1Content where
  senderAddress : Felt
  calldata : List Felt
  maxFee : Felt
  signature : List Felt
  nonce : Felt

structure InvokeTransactionV3Content where
  senderAddress : Felt
  calldata : List Felt
  signature : List Felt
  nonce : Felt
  resourceBounds : ResourceBoundsMapping
  tip : UInt64
  paymasterData : List Felt
  accountDeploymentData : List Felt
  nonceDataAvailabilityMode : DataAvailabilityMode
  feeDataAvailabilityMode : DataAvailabilityMode

structure L1HandlerTransactionContent where
  nonce : UInt64
  contractAddress : Felt
  entryPointSelector : Felt
  calldata : List Felt

structure DeclareTransactionV0Content where
  senderAddress : Felt
  maxFee : Felt
  signature : List Felt
  classHash : Felt

structure DeclareTransactionV1Content where
  senderAddress : Felt
  maxFee : Felt
  signature : List Felt
  nonce : Felt
  classHash : Felt

structure DeclareTransactionV2Content where
  senderAddress : Felt
  compiledClassHash : Felt
  maxFee : Felt
  signature : List Felt
  nonce : Felt
  classHash : Felt

structure DeclareTransactionV3Content where
  senderAddress : Felt
  compiledClassHash : Felt
  signature : List Felt
  nonce : Felt
  classHash : Felt
  resourceBounds : ResourceBoundsMapping
  tip : UInt64
  paymasterData : List Felt
  accountDeploymentData : List Felt
  nonceDataAvailabilityMode : DataAvailabilityMode
  feeDataAvailabilityMode : DataAvailabilityMode

structure DeployTransactionContent where
  contractAddressSalt : Felt
  constructorCalldata : List Felt
  classHash : Felt

structure DeployAccountTransactionV1Content where
  maxFee : Felt
  signature : List Felt
  nonce : Felt
  contractAddressSalt : Felt
  constructorCalldata : List Felt
  classHash : Felt

structure DeployAccountTransactionV3Content where
  signature : List Felt
  nonce : Felt
  contractAddressSalt : Felt
  constructorCalldata : List Felt
  classHash : Felt
  resourceBounds : ResourceBoundsMapping
  tip : UInt64
  paymasterData : List Felt
  nonceDataAvailabilityMode : DataAvailabilityMode
  feeDataAvailabilityMode : DataAvailabilityMode

inductive InvokeTransactionContent where
  | v0 (content : InvokeTransactionV0Content)
  | v1 (content : InvokeTransactionV1Content)
  | v3 (content : InvokeTransactionV3Content)

inductive DeclareTransactionContent where
  | v0 (content : DeclareTransactionV0Content)
  | v1 (content : DeclareTransactionV1Content)
  | v2 (content : DeclareTransactionV2Content)
  | v3 (content : DeclareTransactionV3Content)

inductive DeployAccountTransactionContent where
  | v1 (content : DeployAccountTransactionV1Content)
  | v3 (content : DeployAccountTransactionV3Content)

inductive TransactionContent where
  | invoke (content : InvokeTransactionContent)
  | l1Handler (content : L1HandlerTransactionContent)
  | declare (content : DeclareTransactionContent)
  | deploy (content : DeployTransactionContent)
  | deployAccount (content : DeployAccountTransactionContent)

end Rpc

/-! ## The messages -/

namespace Proto

/-- A `u128` as two limbs, the first one the more significant. -/
structure Uint128 where
  x0 : UInt64
  x1 : UInt64

structure ResourcePrice where
  priceInFri : Option FieldElement
  priceInWei : Option FieldElement

structure Timestamp where
  seconds : Int64
  nanos : Int32

structure BlockHeader where
  blockHash : Option FieldElement
  parentBlockHash : Option FieldElement
  blockNumber : UInt64
  sequencerAddress : Option FieldElement
  newRoot : Option FieldElement
  timestamp : Option Timestamp
  starknetVersion : String
  l1GasPrice : Option ResourcePrice
  l1DataGasPrice : Option ResourcePrice
  l1DataAvailabilityMode : Int32
  l2GasPrice : Option ResourcePrice

structure ResourceBounds where
  maxAmount : UInt64
  maxPricePerUnit : Option Uint128

structure ResourceBoundsMapping where
  l1Gas : Option ResourceBounds
  l2Gas : Option ResourceBounds

structure InvokeTransactionV0 where
  maxFee : Option FieldElement
  signature : List FieldElement
  contractAddress : Option FieldElement
  entryPointSelector : Option FieldElement
  calldata : List FieldElement

structure InvokeTransactionV1 where
  senderAddress : Option FieldElement
  calldata : List FieldElement
  maxFee : Option FieldElement
  signature : List FieldElement
  nonce : Option FieldElement

structure InvokeTransactionV3 where
  senderAddress : Option FieldElement
  calldata : List FieldElement
  signature : List FieldElement
  nonce : Option FieldElement
  resourceBounds : Option ResourceBoundsMapping
  tip : UInt64
  paymasterData : List FieldElement
  accountDeploymentData : List FieldElement
  nonceDataAvailabilityMode : Int32
  feeDataAvailabilityMode : Int32

structure L1HandlerTransaction where
  nonce : UInt64
  contractAddress : Option FieldElement
  entryPointSelector : Option FieldElement
  calldata : List FieldElement

structure DeployTransaction where
  contractAddressSalt : Option FieldElement
  constructorCalldata : List FieldElement
  classHash : Option FieldElement

structure DeclareTransactionV0 where
  senderAddress : Option FieldElement
  maxFee : Option FieldElement
  signature : List FieldElement
  classHash : Option FieldElement

structure DeclareTransactionV1 where
  senderAddress : Option FieldElement
  maxFee : Option FieldElement
  signature : List FieldElement
  nonce : Option FieldElement
  classHash : Option FieldElement

structure DeclareTransactionV2 where
  senderAddress : Option FieldElement
  compiledClassHash : Option FieldElement
  maxFee : Option FieldElement
  signature : List FieldElement
  nonce : Option FieldElement
  classHash : Option FieldElement

structure DeclareTransactionV3 where
  senderAddress : Option FieldElement
  compiledClassHash : Option FieldElement
  signature : List FieldElement
  nonce : Option FieldElement
  classHash : Option FieldElement
  resourceBounds : Option ResourceBoundsMapping
  tip : UInt64
  paymasterData : List FieldElement
  accountDeploymentData : List FieldElement
  nonceDataAvailabilityMode : Int32
  feeDataAvailabilityMode : Int32

structure DeployAccountTransactionV1 where
  maxFee : Option FieldElement
  signature : List FieldElement
  nonce : Option FieldElement
  contractAddressSalt : Option FieldElement
  constructorCalldata : List FieldElement
  classHash : Option FieldElement

structure DeployAccountTransactionV3 where
  signature : List FieldElement
  nonce : Option FieldElement
  contractAddressSalt : Option FieldElement
  constructorCalldata : List FieldElement
  classHash : Option FieldElement
  resourceBounds : Option ResourceBoundsMapping
  tip : UInt64
  paymasterData : List FieldElement
  nonceDataAvailabilityMode : Int32
  feeDataAvailabilityMode : Int32

inductive TransactionVariant where
  | invokeV0 (transaction : InvokeTransactionV0)
  | invokeV1 (transaction : InvokeTransactionV1)
  | invokeV3 (transaction : InvokeTransactionV3)
  | l1Handler (transaction : L1HandlerTransaction)
  | deploy (transaction : DeployTransaction)
  | declareV0 (transaction : DeclareTransactionV0)
  | declareV1 (transaction : DeclareTransactionV1)
  | declareV2 (transaction : DeclareTransactionV2)
  | declareV3 (transaction : DeclareTransactionV3)
  | deployAccountV1 (transaction : DeployAccountTransactionV1)
  | deployAccountV3 (transaction : DeployAccountTransactionV3)

/-- A transaction message with all its fields. -/
structure FullTransaction where
  metadata : Option TransactionMeta
  transaction : Option TransactionVariant

end Proto

/-! ## The conversions -/

namespace Proto

def Uint128.fromBytes (bytes : List UInt8) : Uint128 :=
  let limb start := UInt64.ofNat (BigEndian.ofBytes ((bytes.drop start).take 8))
  ⟨limb 0, limb 8⟩

def Uint128.toBytes (number : Uint128) : List UInt8 :=
  BigEndian.toBytes 8 number.x0.toNat ++ BigEndian.toBytes 8 number.x1.toNat

/-- The placeholder metadata that every conversion starts with. -/
def FullTransaction.ofVariant (variant : TransactionVariant) : FullTransaction where
  metadata := some ⟨none, u32Max, 0⟩
  transaction := some variant

/-- `set_transaction_meta`. -/
def FullTransaction.setMeta (transaction : FullTransaction) (transactionHash : FieldElement) (index : Nat)
    (status : TransactionStatus) : FullTransaction :=
  match transaction.metadata with
  | some _ => { transaction with metadata := some ⟨some transactionHash, index, status.toInt⟩ }
  | none => transaction

end Proto

namespace Rpc

def U128.toProto (number : U128) : Proto.Uint128 := Proto.Uint128.fromBytes (BigEndian.toBytes 16 number.toNat)

def ResourcePrice.toProto (price : ResourcePrice) : Proto.ResourcePrice where
  priceInFri := some (Starknet.toProto price.priceInFri)
  priceInWei := some (Starknet.toProto price.priceInWei)

def L1DataAvailabilityMode.toProto : L1DataAvailabilityMode → Int32
  | blob => 1
  | calldata => 2

def DataAvailabilityMode.toProto : DataAvailabilityMode → Int32
  | l1 => 1
  | l2 => 2

def ResourceBounds.toProto (bounds : ResourceBounds) : Proto.ResourceBounds where
  maxAmount := bounds.maxAmount
  maxPricePerUnit := some (U128.toProto bounds.maxPricePerUnit)

def ResourceBoundsMapping.toProto (mapping : ResourceBoundsMapping) : Proto.ResourceBoundsMapping where
  l1Gas := some mapping.l1Gas.toProto
  l2Gas := some mapping.l2Gas.toProto

end Rpc

def convertBlockHeader (block : Rpc.BlockWithReceipts) : Proto.BlockHeader where
  blockHash := some (toProto block.blockHash)
  parentBlockHash := some (toProto block.parentHash)
  blockNumber := block.blockNumber
  newRoot := some (toProto block.newRoot)
  sequencerAddress := some (toProto block.sequencerAddress)
  starknetVersion := block.starknetVersion
  timestamp := some ⟨block.timestamp.toInt64, 0⟩
  l1DataGasPrice := some block.l1GasPrice.toProto
  l1GasPrice := some block.l1GasPrice.toProto
  l2GasPrice := some block.l2GasPrice.toProto
  l1DataAvailabilityMode := block.l1DaMode.toProto

def convertPreConfirmedBlockHeader (block : Rpc.PreConfirmedBlockWithReceipts) : Proto.BlockHeader where
  blockHash := none
  parentBlockHash := none
  blockNumber := block.blockNumber
  newRoot := none
  sequencerAddress := some (toProto block.sequencerAddress)
  starknetVersion := block.starknetVersion
  timestamp := some ⟨block.timestamp.toInt64, 0⟩
  l1DataGasPrice := some block.l1GasPrice.toProto
  l1GasPrice := some block.l1GasPrice.toProto
  l2GasPrice := some block.l2GasPrice.toProto
  l1DataAvailabilityMode := block.l1DaMode.toProto

namespace Rpc

def InvokeTransactionV0Content.inner (content : InvokeTransactionV0Content) : Proto.InvokeTransactionV0 where
  maxFee := some (Starknet.toProto content.maxFee)
  signature := content.signature.map Starknet.toProto
  contractAddress := some (Starknet.toProto content.contractAddress)
  entryPointSelector := some (Starknet.toProto content.entryPointSelector)
  calldata := content.calldata.map Starknet.toProto

def InvokeTransactionV0Content.toProto (content : InvokeTransactionV0Content) : Proto.FullTransaction :=
  .ofVariant (.invokeV0 content.inner)

def InvokeTransactionV1Content.inner (content : InvokeTransactionV1Content) : Proto.InvokeTransactionV1 where
  senderAddress := some (Starknet.toProto content.senderAddress)
  calldata := content.calldata.map Starknet.toProto
  maxFee := some (Starknet.toProto content.maxFee)
  signature := content.signature.map Starknet.toProto
  nonce := some (Starknet.toProto content.nonce)

def InvokeTransactionV1Content.toProto (content : InvokeTransactionV1Content) : Proto.FullTransaction :=
  .ofVariant (.invokeV1 content.inner)

def InvokeTransactionV3Content.inner (content : InvokeTransactionV3Content) : Proto.InvokeTransactionV3 where
  senderAddress := some (Starknet.toProto content.senderAddress)
  calldata := content.calldata.map Starknet.toProto
  signature := content.signature.map Starknet.toProto
  nonce := some (Starknet.toProto content.nonce)
  resourceBounds := some content.resourceBounds.toProto
  tip := content.tip
  paymasterData := content.paymasterData.map Starknet.toProto
  accountDeploymentData := content.accountDeploymentData.map Starknet.toProto
  nonceDataAvailabilityMode := content.nonceDataAvailabilityMode.toProto
  feeDataAvailabilityMode := content.feeDataAvailabilityMode.toProto

def InvokeTransactionV3Content.toProto (content : InvokeTransactionV3Content) : Proto.FullTransaction :=
  .ofVariant (.invokeV3 content.inner)

def L1HandlerTransactionContent.inner (content : L1HandlerTransactionContent) :
    Proto.L1HandlerTransaction where
  nonce := content.nonce
  contractAddress := some (Starknet.toProto content.contractAddress)
  entryPointSelector := some (Starknet.toProto content.entryPointSelector)
  calldata := content.calldata.map Starknet.toProto

def L1HandlerTransactionContent.toProto (content : L1HandlerTransactionContent) : Proto.FullTransaction :=
  .ofVariant (.l1Handler content.inner)

def DeclareTransactionV0Content.inner (content : DeclareTransactionV0Content) :
    Proto.DeclareTransactionV0 where
  senderAddress := some (Starknet.toProto content.senderAddress)
  maxFee := some (Starknet.toProto content.maxFee)
  signature := content.signature.map Starknet.toProto
  classHash := some (Starknet.toProto content.classHash)

def DeclareTransactionV0Content.toProto (content : DeclareTransactionV0Content) : Proto.FullTransaction :=
  .ofVariant (.declareV0 content.inner)

def DeclareTransactionV1Content.inner (content : DeclareTransactionV1Content) :
    Proto.DeclareTransactionV1 where
  senderAddress := some (Starknet.toProto content.senderAddress)
  maxFee := some (Starknet.toProto content.maxFee)
  signature := content.signature.map Starknet.toProto
  nonce := some (Starknet.toProto content.nonce)
  classHash := some (Starknet.toProto content.classHash)

def DeclareTransactionV1Content.toProto (content : DeclareTransactionV1Content) : Proto.FullTransaction :=
  .ofVariant (.declareV1 content.inner)

def DeclareTransactionV2Content.inner (content : DeclareTransactionV2Content) :
    Proto.DeclareTransactionV2 where
  senderAddress := some (Starknet.toProto content.senderAddress)
  compiledClassHash := some (Starknet.toProto content.compiledClassHash)
  maxFee := some (Starknet.toProto content.maxFee)
  signature := content.signature.map Starknet.toProto
  nonce := some (Starknet.toProto content.nonce)
  classHash := some (Starknet.toProto content.classHash)

def DeclareTransactionV2Content.toProto (content : DeclareTransactionV2Content) : Proto.FullTransaction :=
  .ofVariant (.declareV2 content.inner)

def DeclareTransactionV3Content.inner (content : DeclareTransactionV3Content) :
    Proto.DeclareTransactionV3 where
  senderAddress := some (Starknet.toProto content.senderAddress)
  compiledClassHash := some (Starknet.toProto content.compiledClassHash)
  signature := content.signature.map Starknet.toProto
  nonce := some (Starknet.toProto content.nonce)
  classHash := some (Starknet.toProto content.classHash)
  resourceBounds := some content.resourceBounds.toProto
  tip := content.tip
  paymasterData := content.paymasterData.map Starknet.toProto
  accountDeploymentData := content.accountDeploymentData.map Starknet.toProto
  nonceDataAvailabilityMode := content.nonceDataAvailabilityMode.toProto
  feeDataAvailabilityMode := content.feeDataAvailabilityMode.toProto

def DeclareTransactionV3Content.toProto (content : DeclareTransactionV3Content) : Proto.FullTransaction :=
  .ofVariant (.declareV3 content.inner)

def DeployTransactionContent.inner (content : DeployTransactionContent) : Proto.DeployTransaction where
  contractAddressSalt := some (Starknet.toProto content.contractAddressSalt)
  constructorCalldata := content.constructorCalldata.map Starknet.toProto
  classHash := some (Starknet.toProto content.classHash)

def DeployTransactionContent.toProto (content : DeployTransactionContent) : Proto.FullTransaction :=
  .ofVariant (.deploy content.inner)

def DeployAccountTransactionV1Content.inner (content : DeployAccountTransactionV1Content) :
    Proto.DeployAccountTransactionV1 where
  maxFee := some (Starknet.toProto content.maxFee)
  signature := content.signature.map Starknet.toProto
  nonce := some (Starknet.toProto content.nonce)
  contractAddressSalt := some (Starknet.toProto content.contractAddressSalt)
  constructorCalldata := content.constructorCalldata.map Starknet.toProto
  classHash := some (Starknet.toProto content.classHash)

def DeployAccountTransactionV1Content.toProto (content : DeployAccountTransactionV1Content) : Proto.FullTransaction :=
  .ofVariant (.deployAccountV1 content.inner)

def DeployAccountTransactionV3Content.inner (content : DeployAccountTransactionV3Content) :
    Proto.DeployAccountTransactionV3 where
  signature := content.signature.map Starknet.toProto
  nonce := some (Starknet.toProto content.nonce)
  contractAddressSalt := some (Starknet.toProto content.contractAddressSalt)
  constructorCalldata := content.constructorCalldata.map Starknet.toProto
  classHash := some (Starknet.toProto content.classHash)
  resourceBounds := some content.resourceBounds.toProto
  tip := content.tip
  paymasterData := content.paymasterData.map Starknet.toProto
  nonceDataAvailabilityMode := content.nonceDataAvailabilityMode.toProto
  feeDataAvailabilityMode := content.feeDataAvailabilityMode.toProto

def DeployAccountTransactionV3Content.toProto (content : DeployAccountTransactionV3Content) : Proto.FullTransaction :=
  .ofVariant (.deployAccountV3 content.inner)

def InvokeTransactionContent.toProto : InvokeTransactionContent → Proto.FullTransaction
  | v0 content => content.toProto
  | v1 content => content.toProto
  | v3 content => content.toProto

def DeclareTransactionContent.toProto : DeclareTransactionContent → Proto.FullTransaction
  | v0 content => content.toProto
  | v1 content => content.toProto
  | v2 content => content.toProto
  | v3 content => content.toProto

def DeployAccountTransactionContent.toProto : DeployAccountTransactionContent → Proto.FullTransaction
  | v1 content => content.toProto
  | v3 content => content.toProto

def TransactionContent.toProto : TransactionContent → Proto.FullTransaction
  | invoke content => content.toProto
  | l1Handler content => content.toProto
  | declare content => content.toProto
  | deploy content => content.toProto
  | deployAccount content => content.toProto

end Rpc

/-! ## Reading messages -/

/-- The element of the field, if the limbs are those of one. -/
def FieldElement.read (element : FieldElement) : Option Felt :=
  if reduced : BigEndian.ofBytes element.toBytes < 2 ^ 251 + 17 * 2 ^ 192 + 1 then some ⟨_, reduced⟩ else none

theorem FieldElement.read_toProto (felt : Felt) : (toProto felt).read = some felt := by
  have value : BigEndian.ofBytes (toProto felt).toBytes = felt.value := by
    rw [toBytes_toProto, Felt.toBytesBe, BigEndian.ofBytes_toBytes (felt.reduced.trans (by norm_num))]
  cases felt with
  | mk number reduced => simp only [FieldElement.read, value, reduced, ↓reduceDIte]

namespace Proto

def readField (field : Option FieldElement) : Option Felt := field.bind FieldElement.read

def readFields (fields : List FieldElement) : Option (List Felt) := fields.mapM FieldElement.read

@[simp] theorem readField_toProto (felt : Felt) : readField (some (toProto felt)) = some felt := by
  rw [readField, Option.bind_some, FieldElement.read_toProto]

@[simp] theorem readFields_toProto (felts : List Felt) : readFields (felts.map toProto) = some felts := by
  induction felts with
  | nil => rfl
  | cons felt rest ih =>
    rw [readFields] at ih
    rw [readFields, List.map_cons, List.mapM_cons, FieldElement.read_toProto, ih]
    rfl

def Uint128.read (number : Uint128) : Rpc.U128 := BitVec.ofNat 128 (BigEndian.ofBytes number.toBytes)

theorem Uint128.toBytes_fromBytes {bytes : List UInt8} (length : bytes.length = 16) :
    (fromBytes bytes).toBytes = bytes := by
  have last : (bytes.drop 8).take 8 = bytes.drop 8 := List.take_of_length_le (by rw [List.length_drop]; omega)
  rw [toBytes, fromBytes, BigEndian.toBytes_limb (by omega), BigEndian.toBytes_limb (by omega), last,
    BigEndian.take_append_drop_add, List.drop_zero]

@[simp] theorem Uint128.read_toProto (number : Rpc.U128) : (Rpc.U128.toProto number).read = number := by
  rw [read, Rpc.U128.toProto, toBytes_fromBytes (BigEndian.toBytes_length 16 _),
    BigEndian.ofBytes_toBytes number.isLt, BitVec.ofNat_toNat, BitVec.setWidth_eq]

def ResourcePrice.read (price : ResourcePrice) : Option Rpc.ResourcePrice := do
  return { priceInFri := ← readField price.priceInFri, priceInWei := ← readField price.priceInWei }

@[simp] theorem ResourcePrice.read_toProto (price : Rpc.ResourcePrice) : price.toProto.read = some price := by
  simp [read, Rpc.ResourcePrice.toProto]

def Timestamp.read (timestamp : Timestamp) : UInt64 := timestamp.seconds.toUInt64

def readL1DataAvailabilityMode (mode : Int32) : Option Rpc.L1DataAvailabilityMode :=
  if mode = 1 then some .blob else if mode = 2 then some .calldata else none

@[simp] theorem readL1DataAvailabilityMode_toProto (mode : Rpc.L1DataAvailabilityMode) :
    readL1DataAvailabilityMode mode.toProto = some mode := by
  cases mode <;> rfl

def readDataAvailabilityMode (mode : Int32) : Option Rpc.DataAvailabilityMode :=
  if mode = 1 then some .l1 else if mode = 2 then some .l2 else none

@[simp] theorem readDataAvailabilityMode_toProto (mode : Rpc.DataAvailabilityMode) :
    readDataAvailabilityMode mode.toProto = some mode := by
  cases mode <;> rfl

def ResourceBounds.read (bounds : ResourceBounds) : Option Rpc.ResourceBounds := do
  return { maxAmount := bounds.maxAmount, maxPricePerUnit := (← bounds.maxPricePerUnit).read }

@[simp] theorem ResourceBounds.read_toProto (bounds : Rpc.ResourceBounds) : bounds.toProto.read = some bounds := by
  simp [read, Rpc.ResourceBounds.toProto]

def ResourceBoundsMapping.read (mapping : ResourceBoundsMapping) : Option Rpc.ResourceBoundsMapping := do
  return { l1Gas := ← (← mapping.l1Gas).read, l2Gas := ← (← mapping.l2Gas).read }

def readResourceBounds (mapping : Option ResourceBoundsMapping) : Option Rpc.ResourceBoundsMapping :=
  mapping.bind ResourceBoundsMapping.read

@[simp] theorem readResourceBounds_toProto (mapping : Rpc.ResourceBoundsMapping) :
    readResourceBounds (some mapping.toProto) = some mapping := by
  simp [readResourceBounds, ResourceBoundsMapping.read, Rpc.ResourceBoundsMapping.toProto]

namespace BlockHeader

def read (header : BlockHeader) : Option Rpc.BlockWithReceipts := do
  return {
    blockHash := ← readField header.blockHash
    parentHash := ← readField header.parentBlockHash
    blockNumber := header.blockNumber
    newRoot := ← readField header.newRoot
    timestamp := (← header.timestamp).read
    sequencerAddress := ← readField header.sequencerAddress
    l1GasPrice := ← (← header.l1GasPrice).read
    l2GasPrice := ← (← header.l2GasPrice).read
    l1DataGasPrice := ← (← header.l1DataGasPrice).read
    l1DaMode := ← readL1DataAvailabilityMode header.l1DataAvailabilityMode
    starknetVersion := header.starknetVersion }

def readPreConfirmed (header : BlockHeader) : Option Rpc.PreConfirmedBlockWithReceipts := do
  return {
    blockNumber := header.blockNumber
    timestamp := (← header.timestamp).read
    sequencerAddress := ← readField header.sequencerAddress
    l1GasPrice := ← (← header.l1GasPrice).read
    l2GasPrice := ← (← header.l2GasPrice).read
    l1DataGasPrice := ← (← header.l1DataGasPrice).read
    l1DaMode := ← readL1DataAvailabilityMode header.l1DataAvailabilityMode
    starknetVersion := header.starknetVersion }

/-- The price of L1 gas is read for that of L1 data gas. -/
theorem read_convert (block : Rpc.BlockWithReceipts) :
    (convertBlockHeader block).read = some { block with l1DataGasPrice := block.l1GasPrice } := by
  simp [read, convertBlockHeader, Timestamp.read]

theorem readPreConfirmed_convert (block : Rpc.PreConfirmedBlockWithReceipts) :
    (convertPreConfirmedBlockHeader block).readPreConfirmed =
      some { block with l1DataGasPrice := block.l1GasPrice } := by
  simp [readPreConfirmed, convertPreConfirmedBlockHeader, Timestamp.read]

end BlockHeader

def InvokeTransactionV0.read (message : InvokeTransactionV0) : Option Rpc.InvokeTransactionV0Content := do
  return {
    maxFee := ← readField message.maxFee
    signature := ← readFields message.signature
    contractAddress := ← readField message.contractAddress
    entryPointSelector := ← readField message.entryPointSelector
    calldata := ← readFields message.calldata }

theorem InvokeTransactionV0.read_inner (content : Rpc.InvokeTransactionV0Content) :
    content.inner.read = some content := by
  simp only [read, Rpc.InvokeTransactionV0Content.inner, readField_toProto, readFields_toProto]
  rfl

def InvokeTransactionV1.read (message : InvokeTransactionV1) : Option Rpc.InvokeTransactionV1Content := do
  return {
    senderAddress := ← readField message.senderAddress
    calldata := ← readFields message.calldata
    maxFee := ← readField message.maxFee
    signature := ← readFields message.signature
    nonce := ← readField message.nonce }

theorem InvokeTransactionV1.read_inner (content : Rpc.InvokeTransactionV1Content) :
    content.inner.read = some content := by
  simp only [read, Rpc.InvokeTransactionV1Content.inner, readField_toProto, readFields_toProto]
  rfl

def InvokeTransactionV3.read (message : InvokeTransactionV3) : Option Rpc.InvokeTransactionV3Content := do
  return {
    senderAddress := ← readField message.senderAddress
    calldata := ← readFields message.calldata
    signature := ← readFields message.signature
    nonce := ← readField message.nonce
    resourceBounds := ← readResourceBounds message.resourceBounds
    tip := message.tip
    paymasterData := ← readFields message.paymasterData
    accountDeploymentData := ← readFields message.accountDeploymentData
    nonceDataAvailabilityMode := ← readDataAvailabilityMode message.nonceDataAvailabilityMode
    feeDataAvailabilityMode := ← readDataAvailabilityMode message.feeDataAvailabilityMode }

theorem InvokeTransactionV3.read_inner (content : Rpc.InvokeTransactionV3Content) :
    content.inner.read = some content := by
  simp only [read, Rpc.InvokeTransactionV3Content.inner, readField_toProto, readFields_toProto,
    readResourceBounds_toProto, readDataAvailabilityMode_toProto]
  rfl

def L1HandlerTransaction.read (message : L1HandlerTransaction) : Option Rpc.L1HandlerTransactionContent := do
  return {
    nonce := message.nonce
    contractAddress := ← readField message.contractAddress
    entryPointSelector := ← readField message.entryPointSelector
    calldata := ← readFields message.calldata }

theorem L1HandlerTransaction.read_inner (content : Rpc.L1HandlerTransactionContent) :
    content.inner.read = some content := by
  simp only [read, Rpc.L1HandlerTransactionContent.inner, readField_toProto, readFields_toProto]
  rfl

def DeployTransaction.read (message : DeployTransaction) : Option Rpc.DeployTransactionContent := do
  return {
    contractAddressSalt := ← readField message.contractAddressSalt
    constructorCalldata := ← readFields message.constructorCalldata
    classHash := ← readField message.classHash }

theorem DeployTransaction.read_inner (content : Rpc.DeployTransactionContent) :
    content.inner.read = some content := by
  simp only [read, Rpc.DeployTransactionContent.inner, readField_toProto, readFields_toProto]
  rfl

def DeclareTransactionV0.read (message : DeclareTransactionV0) : Option Rpc.DeclareTransactionV0Content := do
  return {
    senderAddress := ← readField message.senderAddress
    maxFee := ← readField message.maxFee
    signature := ← readFields message.signature
    classHash := ← readField message.classHash }

theorem DeclareTransactionV0.read_inner (content : Rpc.DeclareTransactionV0Content) :
    content.inner.read = some content := by
  simp only [read, Rpc.DeclareTransactionV0Content.inner, readField_toProto, readFields_toProto]
  rfl

def DeclareTransactionV1.read (message : DeclareTransactionV1) : Option Rpc.DeclareTransactionV1Content := do
  return {
    senderAddress := ← readField message.senderAddress
    maxFee := ← readField message.maxFee
    signature := ← readFields message.signature
    nonce := ← readField message.nonce
    classHash := ← readField message.classHash }

theorem DeclareTransactionV1.read_inner (content : Rpc.DeclareTransactionV1Content) :
    content.inner.read = some content := by
  simp only [read, Rpc.DeclareTransactionV1Content.inner, readField_toProto, readFields_toProto]
  rfl

def DeclareTransactionV2.read (message : DeclareTransactionV2) : Option Rpc.DeclareTransactionV2Content := do
  return {
    senderAddress := ← readField message.senderAddress
    compiledClassHash := ← readField message.compiledClassHash
    maxFee := ← readField message.maxFee
    signature := ← readFields message.signature
    nonce := ← readField message.nonce
    classHash := ← readField message.classHash }

theorem DeclareTransactionV2.read_inner (content : Rpc.DeclareTransactionV2Content) :
    content.inner.read = some content := by
  simp only [read, Rpc.DeclareTransactionV2Content.inner, readField_toProto, readFields_toProto]
  rfl

def DeclareTransactionV3.read (message : DeclareTransactionV3) : Option Rpc.DeclareTransactionV3Content := do
  return {
    senderAddress := ← readField message.senderAddress
    compiledClassHash := ← readField message.compiledClassHash
    signature := ← readFields message.signature
    nonce := ← readField message.nonce
    classHash := ← readField message.classHash
    resourceBounds := ← readResourceBounds message.resourceBounds
    tip := message.tip
    paymasterData := ← readFields message.paymasterData
    accountDeploymentData := ← readFields message.accountDeploymentData
    nonceDataAvailabilityMode := ← readDataAvailabilityMode message.nonceDataAvailabilityMode
    feeDataAvailabilityMode := ← readDataAvailabilityMode message.feeDataAvailabilityMode }

theorem DeclareTransactionV3.read_inner (content : Rpc.DeclareTransactionV3Content) :
    content.inner.read = some content := by
  simp only [read, Rpc.DeclareTransactionV3Content.inner, readField_toProto, readFields_toProto,
    readResourceBounds_toProto, readDataAvailabilityMode_toProto]
  rfl

def DeployAccountTransactionV1.read (message : DeployAccountTransactionV1) :
    Option Rpc.DeployAccountTransactionV1Content := do
  return {
    maxFee := ← readField message.maxFee
    signature := ← readFields message.signature
    nonce := ← readField message.nonce
    contractAddressSalt := ← readField message.contractAddressSalt
    constructorCalldata := ← readFields message.constructorCalldata
    classHash := ← readField message.classHash }

theorem DeployAccountTransactionV1.read_inner (content : Rpc.DeployAccountTransactionV1Content) :
    content.inner.read = some content := by
  simp only [read, Rpc.DeployAccountTransactionV1Content.inner, readField_toProto, readFields_toProto]
  rfl

def DeployAccountTransactionV3.read (message : DeployAccountTransactionV3) :
    Option Rpc.DeployAccountTransactionV3Content := do
  return {
    signature := ← readFields message.signature
    nonce := ← readField message.nonce
    contractAddressSalt := ← readField message.contractAddressSalt
    constructorCalldata := ← readFields message.constructorCalldata
    classHash := ← readField message.classHash
    resourceBounds := ← readResourceBounds message.resourceBounds
    tip := message.tip
    paymasterData := ← readFields message.paymasterData
    nonceDataAvailabilityMode := ← readDataAvailabilityMode message.nonceDataAvailabilityMode
    feeDataAvailabilityMode := ← readDataAvailabilityMode message.feeDataAvailabilityMode }

theorem DeployAccountTransactionV3.read_inner (content : Rpc.DeployAccountTransactionV3Content) :
    content.inner.read = some content := by
  simp only [read, Rpc.DeployAccountTransactionV3Content.inner, readField_toProto, readFields_toProto,
    readResourceBounds_toProto, readDataAvailabilityMode_toProto]
  rfl

def TransactionVariant.read : TransactionVariant → Option Rpc.TransactionContent
  | invokeV0 message => message.read.map fun content => .invoke (.v0 content)
  | invokeV1 message => message.read.map fun content => .invoke (.v1 content)
  | invokeV3 message => message.read.map fun content => .invoke (.v3 content)
  | l1Handler message => message.read.map .l1Handler
  | deploy message => message.read.map .deploy
  | declareV0 message => message.read.map fun content => .declare (.v0 content)
  | declareV1 message => message.read.map fun content => .declare (.v1 content)
  | declareV2 message => message.read.map fun content => .declare (.v2 content)
  | declareV3 message => message.read.map fun content => .declare (.v3 content)
  | deployAccountV1 message => message.read.map fun content => .deployAccount (.v1 content)
  | deployAccountV3 message => message.read.map fun content => .deployAccount (.v3 content)

/-- The transaction, and the hash, the index and the status of its metadata. -/
def FullTransaction.read (message : FullTransaction) :
    Option (Rpc.TransactionContent × FieldElement × Nat × Int) := do
  let metadata ← message.metadata
  return (← (← message.transaction).read, ← metadata.transactionHash, metadata.transactionIndex,
    metadata.transactionStatus)

theorem FullTransaction.read_setMeta {variant : TransactionVariant} {content} (isRead : variant.read = some content)
    (transactionHash : FieldElement) (index : Nat) (status : TransactionStatus) :
    ((ofVariant variant).setMeta transactionHash index status).read =
      some (content, transactionHash, index, status.toInt) := by
  simp only [ofVariant, setMeta, read, Option.bind_eq_bind, Option.bind_some, isRead]
  rfl

/-- Every field of a transaction is read from its message. -/
theorem FullTransaction.read_toProto (content : Rpc.TransactionContent) (transactionHash : FieldElement) (index : Nat)
    (status : TransactionStatus) :
    (content.toProto.setMeta transactionHash index status).read =
      some (content, transactionHash, index, status.toInt) := by
  cases content with
  | invoke content =>
    cases content with
    | v0 =>
      refine read_setMeta ?_ _ _ _
      rw [TransactionVariant.read, InvokeTransactionV0.read_inner, Option.map_some]
    | v1 =>
      refine read_setMeta ?_ _ _ _
      rw [TransactionVariant.read, InvokeTransactionV1.read_inner, Option.map_some]
    | v3 =>
      refine read_setMeta ?_ _ _ _
      rw [TransactionVariant.read, InvokeTransactionV3.read_inner, Option.map_some]
  | l1Handler =>
    refine read_setMeta ?_ _ _ _
    rw [TransactionVariant.read, L1HandlerTransaction.read_inner, Option.map_some]
  | declare content =>
    cases content with
    | v0 =>
      refine read_setMeta ?_ _ _ _
      rw [TransactionVariant.read, DeclareTransactionV0.read_inner, Option.map_some]
    | v1 =>
      refine read_setMeta ?_ _ _ _
      rw [TransactionVariant.read, DeclareTransactionV1.read_inner, Option.map_some]
    | v2 =>
      refine read_setMeta ?_ _ _ _
      rw [TransactionVariant.read, DeclareTransactionV2.read_inner, Option.map_some]
    | v3 =>
      refine read_setMeta ?_ _ _ _
      rw [TransactionVariant.read, DeclareTransactionV3.read_inner, Option.map_some]
  | deploy =>
    refine read_setMeta ?_ _ _ _
    rw [TransactionVariant.read, DeployTransaction.read_inner, Option.map_some]
  | deployAccount content =>
    cases content with
    | v1 =>
      refine read_setMeta ?_ _ _ _
      rw [TransactionVariant.read, DeployAccountTransactionV1.read_inner, Option.map_some]
    | v3 =>
      refine read_setMeta ?_ _ _ _
      rw [TransactionVariant.read, DeployAccountTransactionV3.read_inner, Option.map_some]

end Proto

/-! ## What the conversions keep -/

theorem TransactionStatus.toInt_injective : Function.Injective TransactionStatus.toInt := by
  intro left right same
  cases left <;> cases right <;> first | rfl | cases same

section
variable {block : Rpc.BlockWithReceipts} {preConfirmed : Rpc.PreConfirmedBlockWithReceipts}

/-- A header is read back exactly when its two prices on L1 are the same. -/
theorem read_convertBlockHeader_iff :
    (convertBlockHeader block).read = some block ↔ block.l1DataGasPrice = block.l1GasPrice := by
  rw [Proto.BlockHeader.read_convert, Option.some.injEq]
  constructor
  · intro same
    exact (congrArg Rpc.BlockWithReceipts.l1DataGasPrice same).symm
  · intro same
    exact congrArg (fun price => { block with l1DataGasPrice := price }) same.symm

theorem read_convertPreConfirmedBlockHeader_iff :
    (convertPreConfirmedBlockHeader preConfirmed).readPreConfirmed = some preConfirmed ↔
      preConfirmed.l1DataGasPrice = preConfirmed.l1GasPrice := by
  rw [Proto.BlockHeader.readPreConfirmed_convert, Option.some.injEq]
  constructor
  · intro same
    exact (congrArg Rpc.PreConfirmedBlockWithReceipts.l1DataGasPrice same).symm
  · intro same
    exact congrArg (fun price => { preConfirmed with l1DataGasPrice := price }) same.symm

end

/-- Transactions are converted without a loss, and headers exactly when the price of
    L1 data gas is that of L1 gas. -/
theorem converted_faithfully (block : Rpc.BlockWithReceipts) (preConfirmed : Rpc.PreConfirmedBlockWithReceipts)
    (content : Rpc.TransactionContent) (transactionHash : FieldElement) (index : Nat) (status : TransactionStatus) :
    ((convertBlockHeader block).read = some block ↔ block.l1DataGasPrice = block.l1GasPrice) ∧
      Set.InjOn convertBlockHeader {block | block.l1DataGasPrice = block.l1GasPrice} ∧
      ((convertPreConfirmedBlockHeader preConfirmed).readPreConfirmed = some preConfirmed ↔
        preConfirmed.l1DataGasPrice = preConfirmed.l1GasPrice) ∧
      Set.InjOn convertPreConfirmedBlockHeader {block | block.l1DataGasPrice = block.l1GasPrice} ∧
      (content.toProto.setMeta transactionHash index status).read =
        some (content, transactionHash, index, status.toInt) ∧
      Function.Injective fun converted : Rpc.TransactionContent × FieldElement × Nat × TransactionStatus =>
        converted.1.toProto.setMeta converted.2.1 converted.2.2.1 converted.2.2.2 := by
  refine ⟨read_convertBlockHeader_iff, ?_, read_convertPreConfirmedBlockHeader_iff, ?_,
    Proto.FullTransaction.read_toProto .., ?_⟩
  · intro left leftSame right rightSame same
    have isLeft := read_convertBlockHeader_iff.mpr leftSame
    have isRight := read_convertBlockHeader_iff.mpr rightSame
    rw [same] at isLeft
    exact Option.some.inj (isLeft.symm.trans isRight)
  · intro left leftSame right rightSame same
    have isLeft := read_convertPreConfirmedBlockHeader_iff.mpr leftSame
    have isRight := read_convertPreConfirmedBlockHeader_iff.mpr rightSame
    rw [same] at isLeft
    exact Option.some.inj (isLeft.symm.trans isRight)
  · rintro ⟨left, leftHash, leftIndex, leftStatus⟩ ⟨right, rightHash, rightIndex, rightStatus⟩ same
    have sameRead := congrArg Proto.FullTransaction.read same
    simp only [Proto.FullTransaction.read_toProto, Option.some.injEq, Prod.mk.injEq] at sameRead
    obtain ⟨rfl, rfl, rfl, sameStatus⟩ := sameRead
    rw [TransactionStatus.toInt_injective sameStatus]

namespace GasPrices

/-! Two headers that differ in the price of L1 data gas only. -/

def price (value : UInt8) : Rpc.ResourcePrice := ⟨.ofByte value, .ofByte value⟩

def block (l1DataGasPrice : Rpc.ResourcePrice) : Rpc.BlockWithReceipts :=
  ⟨.ofByte 1, .ofByte 2, 10, .ofByte 3, 1700000000, .ofByte 4, price 5, price 6, l1DataGasPrice, .blob, "0.14.0"⟩

def preConfirmed (l1DataGasPrice : Rpc.ResourcePrice) : Rpc.PreConfirmedBlockWithReceipts :=
  ⟨10, 1700000000, .ofByte 4, price 5, price 6, l1DataGasPrice, .blob, "0.14.0"⟩

theorem same_header : (block (price 7)).l1DataGasPrice ≠ (block (price 8)).l1DataGasPrice ∧
    convertBlockHeader (block (price 7)) = convertBlockHeader (block (price 8)) ∧
    convertPreConfirmedBlockHeader (preConfirmed (price 7)) =
      convertPreConfirmedBlockHeader (preConfirmed (price 8)) := by
  refine ⟨fun same => ?_, rfl, rfl⟩
  have sameValue : (7 : Nat) = 8 := congrArg (fun price => price.priceInFri.value) same
  cases sameValue

end GasPrices

end Starkstream.Starknet
