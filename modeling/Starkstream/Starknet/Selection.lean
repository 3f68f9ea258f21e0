import Starkstream.Starknet.Filters
import Starkstream.Starknet.Rows

/-! # What Starknet filters select

What a client asks for with a filter, in terms of the data of the block: a field
of the filter that is set has to be met.  Compiling the filter and evaluating it
on the index of the block selects the rows that match.
-/

namespace Starkstream.Starknet

variable {Content : Type}

/-- The filter compiles, and on the indexed block it selects the items that match;
    row `r` is the message at position `r` of the body. -/
def Selects {α : Type} (compiled : Query.Filter) (result : BlockIngestionResult) (messages : List SerializedProto)
    (items : List α) (Matches : α → Prop) : Prop :=
  ∃ index body rows,
    result.index.find? (fun fragment => fragment.fragmentId == compiled.fragmentId) = some index ∧
    result.body.find? (fun fragment => fragment.fragmentId == compiled.fragmentId) = some body ∧
    body.data = messages ∧ compiled.filter index = .ok rows ∧
    ∀ row, row ∈ rows ↔ ∃ item, items[row]? = some item ∧ Matches item

variable {compiled : Query.Filter} {result : BlockIngestionResult}

theorem Selects.congr {α : Type} {messages} {items : List α} {Matches Other}
    (selects : Selects compiled result messages items Matches) (same : ∀ item, Matches item ↔ Other item) :
    Selects compiled result messages items Other := by
  obtain ⟨index, body, rows, indexFound, bodyFound, data, filtered, mem_rows⟩ := selects
  exact ⟨index, body, rows, indexFound, bodyFound, data, filtered, by simpa only [same] using mem_rows⟩

/-- The same rows are selected, whatever they are said to match. -/
theorem Selects.agree {α : Type} {messages others} {items : List α} {Matches Other}
    (selects : Selects compiled result messages items Matches) (again : Selects compiled result others items Other)
    (row : Nat) : (∃ item, items[row]? = some item ∧ Matches item) ↔ ∃ item, items[row]? = some item ∧ Other item := by
  obtain ⟨_, _, _, indexFound, _, _, filtered, mem_rows⟩ := selects
  obtain ⟨_, _, _, indexFound', _, _, filtered', mem_rows'⟩ := again
  cases indexFound.symm.trans indexFound'
  cases filtered.symm.trans filtered'
  rw [← mem_rows, ← mem_rows']

/-- The wanted element, if there is one, is the given one. -/
def Wants (element : Option FieldElement) (felt : Felt) : Prop :=
  ∀ wanted, element = some wanted → toProto felt = wanted

/-- The status condition of a filter: nothing means succeeded, and unspecified (0)
    and all (3) mean no condition. -/
def WantsStatus (transactionStatus : Option Int) (status : TransactionStatus) : Prop :=
  match transactionStatus with
  | none => status = .succeeded
  | some value => (value = 1 → status = .succeeded) ∧ (value = 2 → status = .reverted)

/-- The transaction is of the variant that the filter names. -/
def TransactionFilter.Inner.Names : TransactionFilter.Inner → Model.TransactionContent Content → Prop
  | invokeV0, .invoke (.v0 _) => True
  | invokeV1, .invoke (.v1 _) => True
  | invokeV3, .invoke (.v3 _) => True
  | deploy, .deploy _ => True
  | declareV0, .declare (.v0 _) => True
  | declareV1, .declare (.v1 _) => True
  | declareV2, .declare (.v2 _) => True
  | declareV3, .declare (.v3 _) => True
  | l1Handler, .l1Handler _ => True
  | deployAccountV1, .deployAccount (.v1 _) => True
  | deployAccountV3, .deployAccount (.v3 _) => True
  | _, _ => False

def TransactionFilter.Matches (filter : TransactionFilter) (item : Model.TransactionWithReceipt Content) : Prop :=
  WantsStatus filter.transactionStatus item.receipt.executionResult.status ∧
    ∀ inner, filter.inner = some inner → inner.Names item.transaction

def MessageToL1Filter.Matches (filter : MessageToL1Filter) (message : Emitted Model.MsgToL1 Content) : Prop :=
  Wants filter.fromAddress message.item.fromAddress ∧ Wants filter.toAddress message.item.toAddress ∧
    WantsStatus filter.transactionStatus message.status

def StorageDiffFilter.Matches (filter : StorageDiffFilter) (item : Model.ContractStorageDiffItem) : Prop :=
  Wants filter.contractAddress item.address

def ContractChangeFilter.Change.Names : ContractChangeFilter.Change → ContractChangeItem → Prop
  | declaredClass, .deprecatedDeclaredClass _ => True
  | declaredClass, .declaredClass _ => True
  | replacedClass, .replacedClass _ => True
  | deployedContract, .deployedContract _ => True
  | _, _ => False

def ContractChangeFilter.Matches (filter : ContractChangeFilter) (item : ContractChangeItem) : Prop :=
  ∀ change, filter.change = some change → change.Names item

def NonceUpdateFilter.Matches (filter : NonceUpdateFilter) (update : Model.NonceUpdate) : Prop :=
  Wants filter.contractAddress update.contractAddress

def TransactionStatusFilter.Accepts : TransactionStatusFilter → TransactionStatus → Prop
  | unspecified, _ => True
  | all, _ => True
  | succeeded, status => status = .succeeded
  | reverted, status => status = .reverted

variable {filter : TransactionStatusFilter}

theorem TransactionStatusFilter.accepts_iff {kind id transactionStatus}
    (parsed : parse kind id transactionStatus = .ok filter) (status : TransactionStatus) :
    filter.Accepts status ↔ WantsStatus transactionStatus status := by
  cases transactionStatus with
  | none =>
    cases parsed
    rfl
  | some =>
    simp only [parse, tryFrom] at parsed
    simp only [WantsStatus]
    split_ifs at parsed <;> cases parsed <;> subst_vars <;> simp_all [Accepts]

section
variable {α : Type} {columns : List (Column α)} {item : α} {indexId : IndexId}

theorem optionCondition_holds {ι : Type} {wanted : Option ι} {key : ι → ScalarValue} {column value}
    (columnAt : columns[indexId.toNat]? = some column) (valueAt : column.key item = some value) :
    (∀ condition ∈ (wanted.map fun wanted => (⟨indexId, key wanted⟩ : Query.Condition)).toList,
      condition.Holds columns item) ↔ ∀ one, wanted = some one → value = key one := by
  simp [Query.Condition.Holds, columnAt, valueAt]

theorem conditionOn_holds {element : Option FieldElement} {column felt}
    (columnAt : columns[indexId.toNat]? = some (elementColumn column)) (value : column item = some (toProto felt)) :
    (∀ condition ∈ conditionOn indexId element, condition.Holds columns item) ↔ Wants element felt := by
  have keyed : (elementColumn column).key item = some (toProto felt).toScalarValue := by
    simp only [elementColumn, value, Option.map_some]
  rw [conditionOn, optionCondition_holds columnAt keyed]
  simp only [FieldElement.toScalarValue_inj, Wants]

theorem statusConditions_holds {kind id transactionStatus}
    (parsed : TransactionStatusFilter.parse kind id transactionStatus = .ok filter) {column}
    {status : TransactionStatus} (columnAt : columns[indexId.toNat]? = some (statusColumn column))
    (value : column item = some status.toInt) :
    (∀ condition ∈ filter.conditions indexId, condition.Holds columns item) ↔
      WantsStatus transactionStatus status := by
  rw [← TransactionStatusFilter.accepts_iff parsed]
  cases filter <;> cases status <;>
    simp [TransactionStatusFilter.conditions, TransactionStatusFilter.Accepts, Query.Condition.Holds, columnAt,
      statusColumn, value, TransactionStatus.toScalarValue, TransactionStatus.toInt]

end

theorem TransactionStatusFilter.parse_cases (kind : String) (id : Nat) (transactionStatus : Option Int) :
    (∃ filter, parse kind id transactionStatus = .ok filter) ∨
      ∃ value message, transactionStatus = some value ∧ tryFrom value = none ∧
        parse kind id transactionStatus = .error (.invalidArgument message) := by
  cases transactionStatus with
  | none => exact .inl ⟨_, rfl⟩
  | some value =>
    cases tried : tryFrom value with
    | none => exact .inr ⟨value, _, rfl, tried, by simp only [parse, tried]; rfl⟩
    | some filter => exact .inl ⟨filter, by simp only [parse, tried]⟩

theorem indexId_of_mem_option {ι : Type} {indexId} {wanted : Option ι} {key : ι → ScalarValue} {condition}
    (member : condition ∈ (wanted.map fun wanted => (⟨indexId, key wanted⟩ : Query.Condition)).toList) :
    condition.indexId = indexId := by
  simp only [Option.mem_toList, Option.map_eq_some_iff] at member
  obtain ⟨_, _, rfl⟩ := member
  rfl

theorem indexId_of_mem_conditions {indexId condition} (member : condition ∈ filter.conditions indexId) :
    condition.indexId = indexId := by
  cases filter <;> simp only [TransactionStatusFilter.conditions, List.not_mem_nil, List.mem_singleton] at member <;>
    rw [member]

/-- From what the loops establish to what a compiled filter selects. -/
theorem Part.Holds.selects {α β : Type} {part items} {make : Nat → α → β} {columns}
    (holds : Part.Holds part items make columns) {index body encode}
    (indexFound : result.index.find? (fun fragment => fragment.fragmentId == compiled.fragmentId) = some index)
    (bodyFound : result.body.find? (fun fragment => fragment.fragmentId == compiled.fragmentId) = some body)
    (data : body.data = part.1.map encode) (start : index.rangeStart = 0) (len : index.rangeLen = part.1.length)
    (indexes : index.indexes.map (·.index) = part.2.map fun builder => .bitmap builder.build)
    (known : ∀ condition ∈ compiled.conditions, condition.indexId.toNat < columns.length) {Matches}
    (met : ∀ row item, (∀ condition ∈ compiled.conditions, condition.Holds columns (make row item)) ↔ Matches item) :
    Selects compiled result (items.mapIdx fun row item => encode (make row item)) items Matches := by
  obtain ⟨rows, filtered, mem_rows⟩ := holds.filter_spec start len indexes compiled known
  refine ⟨index, body, rows, indexFound, bodyFound, ?_, filtered, fun row => ?_⟩
  · rw [data, holds.body]
    exact List.ext_getElem? fun row => by simp [Function.comp_def]
  · rw [mem_rows]
    simp only [met]

/-- A filter with a status selects what matches, unless the status is not one of
    the enumeration. -/
def SelectsOrRejects {α : Type} (compiled : Except Status Query.Filter) (transactionStatus : Option Int)
    (result : BlockIngestionResult) (messages : List SerializedProto) (items : List α) (Matches : α → Prop) : Prop :=
  (∃ filter, compiled = .ok filter ∧ Selects filter result messages items Matches) ∨
    ∃ value message, transactionStatus = some value ∧ TransactionStatusFilter.tryFrom value = none ∧
      compiled = .error (.invalidArgument message)

@[simp] theorem TransactionType.toScalarValue_inj {left right : TransactionType} :
    left.toScalarValue = right.toScalarValue ↔ left = right := by
  cases left <;> cases right <;> decide

@[simp] theorem ContractChangeType.toScalarValue_inj {left right : ContractChangeType} :
    left.toScalarValue = right.toScalarValue ↔ left = right := by
  cases left <;> cases right <;> decide

theorem transactionType_eq_iff_names (inner : TransactionFilter.Inner)
    (content : Model.TransactionContent Content) : content.inner.type = inner.type ↔ inner.Names content := by
  rcases content with (_ | _ | _) | _ | (_ | _ | _ | _) | _ | (_ | _) <;> cases inner <;>
    first
      | exact iff_of_true rfl trivial
      | exact iff_of_false nofun id

theorem contractChangeType_eq_iff_names (change : ContractChangeFilter.Change) (item : ContractChangeItem) {message}
    (isMessage : item.toProto.change = some message) : message.type = change.type ↔ change.Names item := by
  cases item <;> cases isMessage <;> cases change <;>
    first
      | exact iff_of_true rfl trivial
      | exact iff_of_false nofun id

section
variable (encoding : Encoding Content)
include encoding

section
variable (transactions : List (Model.TransactionWithReceipt Content))
  (traces : List (Model.TransactionTraceWithHash Content))
include transactions traces

theorem TransactionFilter.selects (filter : TransactionFilter) :
    SelectsOrRejects filter.compileToFilter filter.transactionStatus
      (collectBlockBodyAndIndex encoding transactions traces)
      (transactions.mapIdx fun row item => encoding.transaction (transactionAt row item)) transactions
      filter.Matches := by
  rcases TransactionStatusFilter.parse_cases "transaction" filter.id filter.transactionStatus with
    ⟨_, parsed⟩ | ⟨value, message, isValue, untried, rejected⟩
  · refine .inl ⟨_, by rw [compileToFilter, parsed]; rfl, ?_⟩
    rw [collectBlockBodyAndIndex, Collected.sort_collect]
    refine (Collected.collect_holds transactions traces).transactions.selects rfl rfl rfl rfl rfl rfl ?_ ?_
    · intro condition member
      rcases List.mem_append.mp member with onStatus | onType
      · rw [indexId_of_mem_conditions onStatus]
        exact Nat.zero_lt_two
      · rw [indexId_of_mem_option onType]
        exact Nat.one_lt_two
    · intro row item
      have onType : (∀ condition ∈ (filter.inner.map fun inner =>
          (⟨Fragment.indexTransactionByType, inner.type.toScalarValue⟩ : Query.Condition)).toList,
          condition.Holds transactionColumns (transactionAt row item)) ↔
            ∀ inner, filter.inner = some inner →
              item.transaction.inner.type.toScalarValue = inner.type.toScalarValue :=
        optionCondition_holds rfl rfl
      simp only [TransactionType.toScalarValue_inj, transactionType_eq_iff_names] at onType
      rw [List.forall_mem_append]
      exact and_congr (statusConditions_holds parsed rfl rfl) onType
  · exact .inr ⟨value, message, isValue, untried, by rw [compileToFilter, rejected]; rfl⟩

theorem MessageToL1Filter.selects (filter : MessageToL1Filter) :
    SelectsOrRejects filter.compileToFilter filter.transactionStatus
      (collectBlockBodyAndIndex encoding transactions traces)
      ((messagesOf transactions).mapIdx fun row message => encoding.message (messageAt row message))
      (messagesOf transactions) filter.Matches := by
  rcases TransactionStatusFilter.parse_cases "message" filter.id filter.transactionStatus with
    ⟨_, parsed⟩ | ⟨value, message, isValue, untried, rejected⟩
  · refine .inl ⟨_, by rw [compileToFilter, parsed]; rfl, ?_⟩
    rw [collectBlockBodyAndIndex, Collected.sort_collect]
    refine (Collected.collect_holds transactions traces).messages.selects rfl rfl rfl rfl rfl rfl ?_ ?_
    · intro condition member
      rcases List.mem_append.mp member with onAddress | onStatus
      · rcases List.mem_append.mp onAddress with onFrom | onTo
        · rw [indexId_of_mem_option onFrom]
          exact Nat.zero_lt_succ 2
        · rw [indexId_of_mem_option onTo]
          exact Nat.lt_succ_of_lt Nat.one_lt_two
      · rw [indexId_of_mem_conditions onStatus]
        exact Nat.lt_succ_self 2
    · intro row message
      rw [List.forall_mem_append, List.forall_mem_append, and_assoc]
      exact and_congr (conditionOn_holds rfl rfl)
        (and_congr (conditionOn_holds rfl rfl) (statusConditions_holds parsed rfl rfl))
  · exact .inr ⟨value, message, isValue, untried, by rw [compileToFilter, rejected]; rfl⟩

end

variable (stateDiff : Model.StateDiff)
include stateDiff

theorem StorageDiffFilter.selects (filter : StorageDiffFilter) :
    ∃ compiled, filter.compileToFilter = .ok compiled ∧
      Selects compiled (collectStateUpdateBodyAndIndex encoding stateDiff)
        (stateDiff.storageDiffs.mapIdx fun _ item => encoding.storageDiff item.toProto) stateDiff.storageDiffs
        filter.Matches := by
  refine ⟨_, rfl, ?_⟩
  refine (CollectedState.collect_holds stateDiff).storageDiffs.selects rfl rfl rfl rfl rfl rfl ?_ ?_
  · intro condition member
    rw [indexId_of_mem_option member]
    exact Nat.one_pos
  · intro _ item
    exact conditionOn_holds rfl rfl

theorem ContractChangeFilter.selects (filter : ContractChangeFilter) :
    ∃ compiled, filter.compileToFilter = .ok compiled ∧
      Selects compiled (collectStateUpdateBodyAndIndex encoding stateDiff)
        ((contractChangesOf stateDiff).mapIdx fun _ item => encoding.contractChange item.toProto)
        (contractChangesOf stateDiff) filter.Matches := by
  refine ⟨_, rfl, ?_⟩
  refine (CollectedState.collect_holds stateDiff).contractChanges.selects rfl rfl rfl rfl rfl rfl ?_ ?_
  · intro condition member
    rw [indexId_of_mem_option member]
    exact Nat.one_pos
  · intro _ item
    obtain ⟨message, isMessage⟩ : ∃ message, item.toProto.change = some message := by
      cases item <;> exact ⟨_, rfl⟩
    have keyed : (numberColumn fun change : Proto.ContractChange => change.change.map fun change =>
        change.type.toNat).key item.toProto = some message.type.toScalarValue := by
      simp only [numberColumn, isMessage, Option.map_some, ContractChangeType.toScalarValue]
    have onType : (∀ condition ∈ (filter.change.map fun change =>
        (⟨Fragment.indexContractChangeByType, change.type.toScalarValue⟩ : Query.Condition)).toList,
        condition.Holds contractChangeColumns item.toProto) ↔
          ∀ change, filter.change = some change → message.type.toScalarValue = change.type.toScalarValue :=
      optionCondition_holds rfl keyed
    simp only [ContractChangeType.toScalarValue_inj, contractChangeType_eq_iff_names _ _ isMessage] at onType
    exact onType

theorem NonceUpdateFilter.selects (filter : NonceUpdateFilter) :
    ∃ compiled, filter.compileToFilter = .ok compiled ∧
      Selects compiled (collectStateUpdateBodyAndIndex encoding stateDiff)
        (stateDiff.nonces.mapIdx fun _ update => encoding.nonceUpdate update.toProto) stateDiff.nonces
        filter.Matches := by
  refine ⟨_, rfl, ?_⟩
  refine (CollectedState.collect_holds stateDiff).nonceUpdates.selects rfl rfl rfl rfl rfl rfl ?_ ?_
  · intro condition member
    rw [indexId_of_mem_option member]
    exact Nat.one_pos
  · intro _ update
    exact conditionOn_holds rfl rfl

end

end Starkstream.Starknet
