import Starkstream.DataStream.Consistency
import Starkstream.Starknet.Joins

/-! # Which blocks are consistent

The traces of a block come from a call of their own and are not compared with the
transactions.  The trace of a row is looked for at the position of its transaction,
so the tables stay inside the bodies only when the two lists fit together.
-/

namespace Starkstream

/-- The rows of an index are positions in the indexed list. -/
theorem BitmapIndexBuilder.Indexes.within {α : Type} {builder} {items : List α} {column}
    (indexes : Indexes builder items column) : (Index.bitmap builder.build).Within items.length := by
  intro entry member row inside
  have stored : builder[entry.1]? = some entry.2 := Std.ExtTreeMap.mem_toList_iff_getElem?_eq_some.mp member
  have among : row ∈ builder.rows entry.1 := by
    rw [BitmapIndexBuilder.rows, stored]
    exact inside
  obtain ⟨_, found, -⟩ := (indexes.mem_rows entry.1 row).mp among
  exact (List.getElem?_eq_some_iff.mp found).1

theorem BitmapIndexBuilder.AllIndex.within {α : Type} {builders} {items : List α} {columns}
    (index : AllIndex builders items columns) :
    ∀ builder ∈ builders, (Index.bitmap builder.build).Within items.length := by
  induction index with
  | nil => simp
  | cons first _ ih =>
    intro builder member
    rcases List.mem_cons.mp member with rfl | later
    · exact first.within
    · exact ih builder later

end Starkstream

namespace Starkstream.Starknet

variable {Content : Type}

theorem Part.Holds.indexWithin {α β : Type} {part items} {make : Nat → α → β} {columns}
    (holds : Part.Holds part items make columns) {index : IndexFragment}
    (indexes : index.indexes.map (·.index) = part.2.map fun builder => .bitmap builder.build) :
    ∀ entry ∈ index.indexes, entry.index.Within part.1.length := by
  intro entry member
  have listed : entry.index ∈ index.indexes.map (·.index) := List.mem_map_of_mem member
  rw [indexes] at listed
  obtain ⟨builder, inPart, same⟩ := List.mem_map.mp listed
  rw [← same]
  exact holds.index.within builder inPart

variable {transactions : List (Model.TransactionWithReceipt Content)}

section
variable {encoding : Encoding Content} {header : HeaderFragment}
  {traces : List (Model.TransactionTraceWithHash Content)} {stateDiff : Model.StateDiff}

theorem indexes_within : ∀ index ∈ (indexBlock encoding header transactions traces stateDiff).index.indexes,
    ∃ body, (Fragments.BlockAccess.mk (indexBlock encoding header transactions traces stateDiff)).getBodyFragment
        index.fragmentId = .ok body ∧
      index.rangeStart = 0 ∧ index.rangeLen = body.data.length ∧
        ∀ entry ∈ index.indexes, entry.index.Within body.data.length := by
  have holds := Collected.collect_holds transactions traces
  have state := CollectedState.collect_holds stateDiff
  intro index member
  rw [indexBlock, collectBlockBodyAndIndex, Collected.sort_collect] at *
  simp only [Collected.fragments, collectStateUpdateBodyAndIndex, CollectedState.fragments, List.cons_append,
    List.nil_append, List.mem_cons, List.not_mem_nil, or_false] at member
  rcases member with rfl | rfl | rfl | rfl | rfl | rfl | rfl | rfl
  · refine ⟨_, rfl, rfl, List.length_map _ |>.symm, ?_⟩
    rw [List.length_map]
    exact holds.transactions.indexWithin rfl
  · exact ⟨_, rfl, rfl, List.length_map _ |>.symm, by simp⟩
  · refine ⟨_, rfl, rfl, List.length_map _ |>.symm, ?_⟩
    rw [List.length_map]
    exact holds.events.indexWithin rfl
  · refine ⟨_, rfl, rfl, List.length_map _ |>.symm, ?_⟩
    rw [List.length_map]
    exact holds.messages.indexWithin rfl
  · exact ⟨_, rfl, rfl, List.length_map _ |>.symm, by simp⟩
  · refine ⟨_, rfl, rfl, List.length_map _ |>.symm, ?_⟩
    rw [List.length_map]
    exact state.storageDiffs.indexWithin rfl
  · refine ⟨_, rfl, rfl, List.length_map _ |>.symm, ?_⟩
    rw [List.length_map]
    exact state.contractChanges.indexWithin rfl
  · refine ⟨_, rfl, rfl, List.length_map _ |>.symm, ?_⟩
    rw [List.length_map]
    exact state.nonceUpdates.indexWithin rfl

theorem getBodyFragment_kind (kind : Kind) : ∃ body,
    (Fragments.BlockAccess.mk (indexBlock encoding header transactions traces stateDiff)).getBodyFragment
        kind.fragmentId = .ok body ∧
      body.data.length = (kind.owners transactions traces).length := by
  rw [indexBlock, body_collectBlockBodyAndIndex]
  cases kind with
  | transaction | receipt | trace => exact ⟨_, rfl, by simp [bodiesOf, Kind.owners]⟩
  | event => exact ⟨_, rfl, by simp [bodiesOf, Kind.owners, eventOwners, owners, eventsOf]⟩
  | message => exact ⟨_, rfl, by simp [bodiesOf, Kind.owners, messageOwners, owners, messagesOf]⟩

namespace Collected

variable {collected : Collected Content} {source target : Kind} {table : JoinTo}

theorem within_one {builder : JoinToOneIndexBuilder} {sourceRows targetRows}
    (bounds : ∀ sourceRow targetRow, (JoinTo.one builder.build).Maps sourceRow targetRow →
      sourceRow < sourceRows ∧ targetRow < targetRows) : (JoinTo.one builder.build).Within sourceRows targetRows := by
  intro entry member
  exact bounds entry.1 entry.2
    (JoinToOneIndexBuilder.maps_build.mpr (Std.ExtTreeMap.mem_toList_iff_getElem?_eq_some.mp member))

theorem within_many {builder : JoinToManyIndexBuilder} {Relation} (represents : builder.Represents Relation)
    {sourceRows targetRows} (bounds : ∀ sourceRow targetRow, (JoinTo.many builder.build).Maps sourceRow targetRow →
      sourceRow < sourceRows ∧ targetRow < targetRows) : (JoinTo.many builder.build).Within sourceRows targetRows := by
  intro entry member
  have stored := Std.ExtTreeMap.mem_toList_iff_getElem?_eq_some.mp member
  have inside : ∀ row ∈ entry.2, entry.1 < sourceRows ∧ row < targetRows := fun row inRows =>
    bounds entry.1 row (JoinToManyIndexBuilder.maps_build.mpr ⟨entry.2, stored, inRows⟩)
  obtain ⟨row, inRows⟩ := represents.nonempty entry.1 entry.2 stored
  exact ⟨(inside row inRows).1, fun row inRows => (inside row inRows).2⟩

/-- A table that only joins rows of two bodies has no other keys and values. -/
theorem Related.within (related : Related collected traces transactions)
    (isTable : collected.tableOf source target = some table) {sourceRows targetRows}
    (bounds : ∀ sourceRow targetRow, table.Maps sourceRow targetRow → sourceRow < sourceRows ∧ targetRow < targetRows) :
    table.Within sourceRows targetRows := by
  cases source with
  | transaction =>
    cases target with
    | transaction => cases isTable
    | receipt | trace =>
      cases isTable
      exact within_one bounds
    | event =>
      cases isTable
      exact within_many related.events.ofTransaction bounds
    | message =>
      cases isTable
      exact within_many related.messages.ofTransaction bounds
  | event =>
    cases target with
    | transaction | receipt | trace =>
      cases isTable
      exact within_one bounds
    | event =>
      cases isTable
      exact within_many related.cross.eventSiblings bounds
    | message =>
      cases isTable
      exact within_many related.cross.eventMessages bounds
  | message =>
    cases target with
    | transaction | receipt | trace =>
      cases isTable
      exact within_one bounds
    | event =>
      cases isTable
      exact within_many related.cross.messageEvents bounds
    | message =>
      cases isTable
      exact within_many related.cross.messageSiblings bounds
  | receipt | trace => cases isTable

theorem exists_of_mem_joinOf {join} (member : join ∈ (collected.joinOf source).joins) :
    ∃ target : Kind, join.toFragmentId = target.fragmentId ∧ collected.tableOf source target = some join.index := by
  cases source with
  | transaction =>
    simp only [joinOf, transactionJoin, List.mem_cons, List.not_mem_nil, or_false] at member
    rcases member with rfl | rfl | rfl | rfl
    · exact ⟨.receipt, rfl, rfl⟩
    · exact ⟨.event, rfl, rfl⟩
    · exact ⟨.message, rfl, rfl⟩
    · exact ⟨.trace, rfl, rfl⟩
  | event =>
    simp only [joinOf, eventJoin, List.mem_cons, List.not_mem_nil, or_false] at member
    rcases member with rfl | rfl | rfl | rfl | rfl
    · exact ⟨.transaction, rfl, rfl⟩
    · exact ⟨.receipt, rfl, rfl⟩
    · exact ⟨.event, rfl, rfl⟩
    · exact ⟨.message, rfl, rfl⟩
    · exact ⟨.trace, rfl, rfl⟩
  | message =>
    simp only [joinOf, messageJoin, List.mem_cons, List.not_mem_nil, or_false] at member
    rcases member with rfl | rfl | rfl | rfl | rfl
    · exact ⟨.transaction, rfl, rfl⟩
    · exact ⟨.receipt, rfl, rfl⟩
    · exact ⟨.event, rfl, rfl⟩
    · exact ⟨.message, rfl, rfl⟩
    · exact ⟨.trace, rfl, rfl⟩
  | receipt | trace => cases member

theorem fragmentId_joinOf : (collected.joinOf source).fragmentId = source.fragmentId := by
  cases source <;> rfl

end Collected

theorem exists_of_mem_joins {join}
    (member : join ∈ (indexBlock encoding header transactions traces stateDiff).join.joins) :
    join.joins = [] ∨ ∃ source, join = (Collected.collect transactions traces).joinOf source := by
  rw [indexBlock, collectBlockBodyAndIndex, Collected.sort_collect] at member
  simp only [Collected.fragments, collectStateUpdateBodyAndIndex, CollectedState.fragments, List.cons_append,
    List.nil_append, List.mem_cons, List.not_mem_nil, or_false] at member
  rcases member with rfl | rfl | rfl | rfl | rfl | rfl | rfl | rfl
  · exact .inr ⟨.transaction, rfl⟩
  · exact .inl rfl
  · exact .inr ⟨.event, rfl⟩
  · exact .inr ⟨.message, rfl⟩
  · exact .inl rfl
  · exact .inl rfl
  · exact .inl rfl
  · exact .inl rfl

theorem joinOf_mem_joins (source : Kind) : (Collected.collect transactions traces).joinOf source ∈
    (indexBlock encoding header transactions traces stateDiff).join.joins := by
  rw [indexBlock, collectBlockBodyAndIndex, Collected.sort_collect]
  cases source <;> simp [Collected.joinOf, Collected.fragments]

theorem consistent_iff_maps : Fragments.Consistent (indexBlock encoding header transactions traces stateDiff) ↔
    ∀ source target table, (Collected.collect transactions traces).tableOf source target = some table →
      ∀ sourceRow targetRow, table.Maps sourceRow targetRow →
        sourceRow < (source.owners transactions traces).length ∧
          targetRow < (target.owners transactions traces).length := by
  have related := Collected.collect_related transactions traces
  constructor
  · intro consistent source target table isTable sourceRow targetRow maps
    rw [← Collected.find?_joinOf] at isTable
    obtain ⟨join, found, rfl⟩ := Option.map_eq_some_iff.mp isTable
    obtain ⟨_, _, sourceRead, targetRead, within⟩ := consistent.joins _ (joinOf_mem_joins source) join
      (List.mem_of_find?_eq_some found)
    have sameTarget : join.toFragmentId = target.fragmentId := by simpa using List.find?_some found
    obtain ⟨_, otherRead, sourceLength⟩ := getBodyFragment_kind source
    obtain ⟨_, otherTarget, targetLength⟩ := getBodyFragment_kind target
    rw [Collected.fragmentId_joinOf] at sourceRead
    rw [sameTarget] at targetRead
    cases sourceRead.symm.trans otherRead
    cases targetRead.symm.trans otherTarget
    rw [← sourceLength, ← targetLength]
    exact within.of_maps maps
  · intro bounds
    refine ⟨indexes_within, fun join member table inJoin => ?_⟩
    rcases exists_of_mem_joins member with none | ⟨source, rfl⟩
    · rw [none] at inJoin
      cases inJoin
    · obtain ⟨target, sameTarget, isTable⟩ := Collected.exists_of_mem_joinOf inJoin
      obtain ⟨sourceBody, sourceRead, sourceLength⟩ := getBodyFragment_kind source
      obtain ⟨targetBody, targetRead, targetLength⟩ := getBodyFragment_kind target
      refine ⟨sourceBody, targetBody, ?_, ?_, ?_⟩
      · rw [Collected.fragmentId_joinOf]
        exact sourceRead
      · rw [sameTarget]
        exact targetRead
      · rw [sourceLength, targetLength]
        exact related.within isTable (bounds source target table.index isTable)

end

/-- There is a trace for every transaction that has emitted something, at its position. -/
structure Accompanies (traces : List (Model.TransactionTraceWithHash Content))
    (transactions : List (Model.TransactionWithReceipt Content)) : Prop where
  count : traces.length ≤ transactions.length
  hashes : ∀ (index : Nat) trace item, traces[index]? = some trace → transactions[index]? = some item →
    trace.transactionHash = item.receipt.transactionHash
  silent : ∀ (index : Nat) item, traces.length ≤ index → transactions[index]? = some item →
    item.receipt.events = [] ∧ item.receipt.messagesSent = []

/-- A trace that is joined to a transaction has its hash. -/
def TracesMatch (block : Block) (bodies : Bodies Content) : Prop :=
  ∀ transactionRow traceRow, Fragments.Joined (.block ⟨block⟩) Fragment.transactionFragmentId
      Fragment.traceFragmentId transactionRow traceRow →
    ∃ transaction metadata trace, bodies.transactions[transactionRow]? = some transaction ∧
      transaction.metadata = some metadata ∧ bodies.traces[traceRow]? = some trace ∧
      trace.transactionHash = metadata.transactionHash

section
variable {encoding : Encoding Content} {header : HeaderFragment}
  {traces : List (Model.TransactionTraceWithHash Content)} {stateDiff : Model.StateDiff}

theorem Shares.lt {left right leftRow rightRow} (shares : Shares left right leftRow rightRow) :
    leftRow < left.length ∧ rightRow < right.length := by
  obtain ⟨_, leftFound, rightFound⟩ := shares
  exact ⟨(List.getElem?_eq_some_iff.mp leftFound).1, (List.getElem?_eq_some_iff.mp rightFound).1⟩

theorem exists_of_mem_owners {α : Type} {select : Model.TransactionReceipt Content → List α} {index}
    (member : index ∈ owners select transactions) :
    ∃ item, transactions[index]? = some item ∧ select item.receipt ≠ [] := by
  obtain ⟨_, inside, rfl⟩ := List.mem_map.mp member
  obtain ⟨item, found, -, placed⟩ := mem_emitted.mp inside
  refine ⟨item, found, fun none => ?_⟩
  rw [none] at placed
  cases placed

theorem mem_owners_of_ne_nil {α : Type} {select : Model.TransactionReceipt Content → List α} {index item}
    (found : transactions[index]? = some item) (emits : select item.receipt ≠ []) :
    index ∈ owners select transactions := by
  obtain ⟨first, _, isList⟩ := List.exists_cons_of_ne_nil emits
  refine List.mem_map.mpr ⟨⟨first, 0, index, item.receipt⟩, mem_emitted.mpr ⟨item, found, rfl, ?_⟩, rfl⟩
  rw [isList]
  rfl

/-- The tables to traces stay inside the bodies exactly when the traces accompany the transactions, hashes aside. -/
theorem trace_bounds_iff : (∀ source table, (Collected.collect transactions traces).tableOf source .trace = some table →
      ∀ sourceRow targetRow, table.Maps sourceRow targetRow →
        sourceRow < (source.owners transactions traces).length ∧ targetRow < traces.length) ↔
    traces = [] ∨ (traces.length ≤ transactions.length ∧ ∀ (index : Nat) item, traces.length ≤ index →
      transactions[index]? = some item → item.receipt.events = [] ∧ item.receipt.messagesSent = []) := by
  have related := Collected.collect_related transactions traces
  constructor
  · intro bounds
    by_cases none : traces = []
    · exact .inl none
    · refine .inr ⟨?_, fun index item late found => ?_⟩
      · have last := bounds .transaction _ rfl (traces.length - 1) (traces.length - 1)
          ((related.maps_trace rfl).mpr (by
            rw [if_pos rfl]
            exact ⟨rfl, Nat.sub_lt (List.length_pos_iff.mpr none) one_pos⟩))
        rw [Kind.owners, List.length_range] at last
        omega
      · have emitted : ∀ source table, source ≠ .transaction →
            (Collected.collect transactions traces).tableOf source .trace = some table →
            index ∉ source.owners transactions traces := by
          intro source table other isTable member
          obtain ⟨row, owned⟩ := List.getElem?_of_mem member
          have inside := bounds source table isTable row index
            ((related.maps_trace isTable).mpr (by rw [if_neg other]; exact ⟨none, owned⟩))
          omega
        constructor
        · by_contra emits
          exact emitted .event _ (by simp) rfl (mem_owners_of_ne_nil found emits)
        · by_contra emits
          exact emitted .message _ (by simp) rfl (mem_owners_of_ne_nil found emits)
  · intro fits source table isTable sourceRow targetRow maps
    have mapped := (related.maps_trace isTable).mp maps
    split_ifs at mapped with isTransaction
    · subst isTransaction
      obtain ⟨rfl, inside⟩ := mapped
      rw [Kind.owners, List.length_range]
      rcases fits with rfl | ⟨_, -⟩
      · cases inside
      · exact ⟨by omega, inside⟩
    · obtain ⟨some, owned⟩ := mapped
      refine ⟨(List.getElem?_eq_some_iff.mp owned).1, ?_⟩
      rcases fits with none | ⟨-, silent⟩
      · exact absurd none some
      · by_contra late
        have member := List.mem_of_getElem? owned
        cases source with
        | transaction => exact isTransaction rfl
        | receipt | trace => cases isTable
        | event =>
          obtain ⟨item, found, emits⟩ := exists_of_mem_owners member
          exact emits (silent targetRow item (not_lt.mp late) found).1
        | message =>
          obtain ⟨item, found, emits⟩ := exists_of_mem_owners member
          exact emits (silent targetRow item (not_lt.mp late) found).2

theorem consistent_iff_traces : Fragments.Consistent (indexBlock encoding header transactions traces stateDiff) ↔
    ∀ source table, (Collected.collect transactions traces).tableOf source .trace = some table →
      ∀ sourceRow targetRow, table.Maps sourceRow targetRow →
        sourceRow < (source.owners transactions traces).length ∧ targetRow < traces.length := by
  rw [consistent_iff_maps]
  constructor
  · intro bounds source table isTable sourceRow targetRow maps
    have inside := bounds source .trace table isTable sourceRow targetRow maps
    rwa [Kind.owners.eq_def transactions traces .trace, List.length_range] at inside
  · intro bounds source target table isTable sourceRow targetRow maps
    by_cases toTrace : target = .trace
    · subst toTrace
      rw [Kind.owners.eq_def transactions traces .trace, List.length_range]
      exact bounds source table isTable sourceRow targetRow maps
    · exact (((Collected.collect_related transactions traces).maps isTable toTrace).mp maps).1.lt

theorem joined_trace_iff {transactionRow traceRow} :
    Fragments.Joined (.block ⟨indexBlock encoding header transactions traces stateDiff⟩)
        Fragment.transactionFragmentId Fragment.traceFragmentId transactionRow traceRow ↔
      transactionRow = traceRow ∧ traceRow < traces.length := by
  refine Iff.trans (@joined_iff_tableOf _ _ _ .transaction .trace _ _ encoding header stateDiff) ?_
  have maps := @Collected.Related.maps_trace _ _ _ _ .transaction _ transactionRow traceRow
    (Collected.collect_related transactions traces) rfl
  rw [if_pos rfl] at maps
  constructor
  · rintro ⟨_, isTable, isMapped⟩
    cases isTable
    exact maps.mp isMapped
  · intro same
    exact ⟨_, rfl, maps.mpr same⟩

theorem tracesMatch_iff (count : traces.length ≤ transactions.length) :
    TracesMatch (indexBlock encoding header transactions traces stateDiff) (bodiesOf transactions traces) ↔
      ∀ (index : Nat) trace item, traces[index]? = some trace → transactions[index]? = some item →
        trace.transactionHash = item.receipt.transactionHash := by
  constructor
  · intro tracesMatch index trace item traceFound itemFound
    obtain ⟨_, _, _, isTransaction, isMetadata, isMessage, same⟩ := tracesMatch index index
      (joined_trace_iff.mpr ⟨rfl, (List.getElem?_eq_some_iff.mp traceFound).1⟩)
    simp only [bodiesOf, List.getElem?_mapIdx, traceFound, itemFound, Option.map_some, Option.some.injEq]
      at isTransaction isMessage
    subst isTransaction isMessage
    cases isMetadata
    exact toProto_injective (Option.some.inj same)
  · intro hashes transactionRow traceRow isJoined
    obtain ⟨rfl, inside⟩ := joined_trace_iff.mp isJoined
    have traceFound := List.getElem?_eq_getElem inside
    have itemFound := List.getElem?_eq_getElem (inside.trans_le count)
    refine ⟨transactionAt transactionRow transactions[transactionRow], _, traceAt transactionRow traces[transactionRow],
      ?_, rfl, ?_, ?_⟩
    · simp only [bodiesOf, List.getElem?_mapIdx, itemFound, Option.map_some]
    · simp only [bodiesOf, List.getElem?_mapIdx, traceFound, Option.map_some]
    · exact congrArg (fun hash => some (toProto hash)) (hashes _ _ _ traceFound itemFound)

/-- A block is consistent, and its traces are those of their transactions, exactly
    when it has no traces or they accompany the transactions. -/
theorem indexBlock_consistent_iff (encoding : Encoding Content) (header : HeaderFragment)
    (transactions : List (Model.TransactionWithReceipt Content))
    (traces : List (Model.TransactionTraceWithHash Content)) (stateDiff : Model.StateDiff) :
    (Fragments.Consistent (indexBlock encoding header transactions traces stateDiff) ∧
      (∀ names isLive blockFilters, (Fragments.filterFragment
        (.block ⟨indexBlock encoding header transactions traces stateDiff⟩) names isLive blockFilters).Returns) ∧
      TracesMatch (indexBlock encoding header transactions traces stateDiff) (bodiesOf transactions traces)) ↔
    traces = [] ∨ Accompanies traces transactions := by
  constructor
  · rintro ⟨consistent, -, tracesMatch⟩
    rcases trace_bounds_iff.mp (consistent_iff_traces.mp consistent) with none | ⟨count, silent⟩
    · exact .inl none
    · exact .inr ⟨count, (tracesMatch_iff count).mp tracesMatch, silent⟩
  · intro fits
    have consistent : Fragments.Consistent (indexBlock encoding header transactions traces stateDiff) :=
      consistent_iff_traces.mpr (trace_bounds_iff.mpr (fits.imp_right fun accompanies =>
        ⟨accompanies.count, accompanies.silent⟩))
    refine ⟨consistent, consistent.filterFragment_returns, ?_⟩
    rcases fits with rfl | accompanies
    · exact (tracesMatch_iff (Nat.zero_le _)).mpr fun index trace item found => by cases found
    · exact (tracesMatch_iff accompanies.count).mpr accompanies.hashes

end

/-! A block whose second transaction has emitted an event and has no trace. -/

namespace TraceMissing

open TwoTransactions Fragments

def second : Model.TransactionWithReceipt Unit :=
  ⟨.invoke (.v3 ()), .invoke ⟨.ofByte 2, [], [event], .succeeded, ()⟩⟩

def block : Block := indexBlock .noBytes header [first, second] [firstTrace] stateDiff

/-- All events, with the traces of their transactions. -/
def filter : Query.Filter := ⟨1, Fragment.eventFragmentId, [], [Fragment.traceFragmentId]⟩

def blockFilter : Query.BlockFilter := Query.BlockFilter.addFilter {} filter

def names : FragmentNames :=
  (FragmentNames.base.insert Fragment.eventFragmentId "event").insert Fragment.traceFragmentId "trace"

/-- The transaction of the event is the second one, so the second trace is asked for. -/
theorem panics : Fragments.filterFragment (.block ⟨block⟩) names false [blockFilter] = .error .panic := by
  decide +kernel

theorem not_consistent : ¬Consistent block ∧
    Fragments.filterFragment (.block ⟨block⟩) names false [blockFilter] = .error .panic :=
  ⟨fun consistent => consistent.filterFragment_returns names false [blockFilter] panics, panics⟩

end TraceMissing

end Starkstream.Starknet
