import Starkstream.DataStream.FilterResult
import Starkstream.Starknet.Rows

/-! # What the join tables of a block relate

Every message of a block has the index of its transaction.  The tables that
`collect_block_body_and_index` fills are the joins over that column: a row is joined
to the rows of another fragment that belong to the same transaction, and to the
other rows of its own fragment.

The loops are followed with lists that have, for every row, the transaction it
belongs to.
-/

namespace Starkstream

theorem JoinToOneIndexBuilder.maps_build {builder source target} :
    JoinTo.Maps (.one (build builder)) source target ↔ builder[source]? = some target := by
  have answers : JoinToOneIndex.get (build builder) source = builder[source]? :=
    BinarySearch.Table.get_ofMap fun _ _ => rfl
  rw [JoinTo.Maps, answers]

namespace JoinToManyIndexBuilder

/-- The row of the source is related to the row of the target. -/
def Relates (builder : JoinToManyIndexBuilder) (source target : Nat) : Prop :=
  ∃ rows, builder[source]? = some rows ∧ target ∈ rows

theorem maps_build {builder source target} :
    JoinTo.Maps (.many (build builder)) source target ↔ Relates builder source target := by
  have answers : JoinToManyIndex.get (build builder) source = builder[source]? :=
    BinarySearch.Table.get_ofMap fun _ _ => rfl
  rw [JoinTo.Maps, answers, Relates]

/-- The builder has exactly the pairs of the relation, and no row without a partner. -/
structure Represents (builder : JoinToManyIndexBuilder) (Relation : Nat → Nat → Prop) : Prop where
  relates : ∀ source target, Relates builder source target ↔ Relation source target
  nonempty : ∀ (source : Nat) (rows : Bitmap), builder[source]? = some rows → rows.Nonempty

namespace Represents

variable {builder : JoinToManyIndexBuilder} {Relation Other : Nat → Nat → Prop}

theorem empty : Represents ∅ fun _ _ => False where
  relates source target := by simp [Relates]
  nonempty source rows found := by simp at found

theorem congr (represents : Represents builder Relation)
    (same : ∀ source target, Relation source target ↔ Other source target) : Represents builder Other where
  relates source target := (represents.relates source target).trans (same source target)
  nonempty := represents.nonempty

theorem insert (represents : Represents builder Relation) (key value : Nat) :
    Represents (JoinToManyIndexBuilder.insert builder key value) fun source target =>
      Relation source target ∨ (source = key ∧ target = value) where
  relates source target := by
    rw [← represents.relates]
    by_cases same : key = source
    · subst same
      cases found : builder[key]? with
      | none => simp [Relates, JoinToManyIndexBuilder.insert, found]
      | some => simp [Relates, JoinToManyIndexBuilder.insert, found, or_comm]
    · simp [Relates, JoinToManyIndexBuilder.insert, Std.ExtTreeMap.getElem?_alter, same, Ne.symm same]
  nonempty source rows found := by
    rw [JoinToManyIndexBuilder.insert, Std.ExtTreeMap.getElem?_alter] at found
    split at found
    · cases found
      exact Finset.insert_nonempty _ _
    · exact represents.nonempty source rows found

/-- A loop holds what it began with and what its turns add. -/
theorem foldl {σ ι : Type} {step} (observe : σ → JoinToManyIndexBuilder) (Adds : ι → Nat → Nat → Prop)
    (turn : ∀ state item {Relation : Nat → Nat → Prop}, Represents (observe state) Relation →
      Represents (observe (step state item)) fun source target => Relation source target ∨ Adds item source target)
    (items : List ι) {state} (represents : Represents (observe state) Relation) :
    Represents (observe (items.foldl step state)) fun source target =>
      Relation source target ∨ ∃ item ∈ items, Adds item source target := by
  induction items generalizing state Relation with
  | nil => exact represents.congr fun source target => by simp
  | cons item rest ih =>
    refine (ih (turn state item represents)).congr fun source target => ?_
    rw [List.exists_mem_cons_iff, or_assoc]

end Represents

end JoinToManyIndexBuilder

end Starkstream

namespace Starkstream.Starknet

variable {Content : Type}

/-! ## Rows and their transactions -/

def traceAt (row : Nat) (trace : Model.TransactionTraceWithHash Content) : Proto.TransactionTrace Content :=
  { trace.toProto with transactionIndex := row }

/-- The transaction that emitted each of the rows. -/
def owners {α : Type} (select : Model.TransactionReceipt Content → List α)
    (transactions : List (Model.TransactionWithReceipt Content)) : List Nat :=
  (emitted select transactions).map (·.transactionIndex)

def eventOwners (transactions : List (Model.TransactionWithReceipt Content)) : List Nat :=
  owners Model.TransactionReceipt.events transactions

def messageOwners (transactions : List (Model.TransactionWithReceipt Content)) : List Nat :=
  owners Model.TransactionReceipt.messagesSent transactions

theorem owners_concat {α : Type} (select : Model.TransactionReceipt Content → List α)
    (transactions : List (Model.TransactionWithReceipt Content)) (item : Model.TransactionWithReceipt Content) :
    owners select (transactions ++ [item]) =
      owners select transactions ++ List.replicate (select item.receipt).length transactions.length := by
  have added : (emittedBy select transactions.length item.receipt).map (·.transactionIndex) =
      List.replicate (select item.receipt).length transactions.length := by
    rw [emittedBy, List.map_map, List.eq_replicate_iff]
    refine ⟨by simp, fun owner member => ?_⟩
    obtain ⟨_, _, rfl⟩ := List.mem_map.mp member
    rfl
  rw [owners, Collected.emitted_concat, List.map_append, added, owners]

variable {transactions : List (Model.TransactionWithReceipt Content)}

theorem owners_lt {α : Type} {select : Model.TransactionReceipt Content → List α} :
    ∀ owner ∈ owners select transactions, owner < transactions.length := by
  induction transactions using List.reverseRecOn with
  | nil => simp [owners, emitted]
  | append_singleton seen item ih =>
    intro owner member
    rw [owners_concat, List.mem_append] at member
    rw [List.length_append, List.length_singleton]
    rcases member with earlier | added
    · exact Nat.lt_succ_of_lt (ih owner earlier)
    · rw [List.eq_of_mem_replicate added]
      exact Nat.lt_succ_self _

def Shares (left right : List Nat) (leftRow rightRow : Nat) : Prop :=
  ∃ owner, left[leftRow]? = some owner ∧ right[rightRow]? = some owner

theorem getElem?_append_replicate {list : List Nat} {count owner row value} :
    (list ++ List.replicate count owner)[row]? = some value ↔
      list[row]? = some value ∨ (row ∈ List.range' list.length count ∧ value = owner) := by
  rw [List.mem_range'_1]
  rcases Nat.lt_or_ge row list.length with inside | outside
  · rw [List.getElem?_append_left inside]
    constructor
    · exact .inl
    · intro found
      rcases found with found | ⟨⟨_, -⟩, -⟩
      · exact found
      · omega
  · rw [List.getElem?_append_right outside, List.getElem?_replicate, List.getElem?_eq_none outside,
      Option.ite_none_right_eq_some]
    constructor
    · intro found
      exact .inr ⟨⟨outside, by omega⟩, (Option.some.inj found.2).symm⟩
    · intro found
      rcases found with absent | ⟨⟨-, _⟩, rfl⟩
      · cases absent
      · exact ⟨by omega, rfl⟩

theorem shares_append {left right : List Nat} {next leftCount rightCount leftRow rightRow}
    (leftBelow : ∀ owner ∈ left, owner < next) (rightBelow : ∀ owner ∈ right, owner < next) :
    Shares (left ++ List.replicate leftCount next) (right ++ List.replicate rightCount next) leftRow rightRow ↔
      Shares left right leftRow rightRow ∨
        (leftRow ∈ List.range' left.length leftCount ∧ rightRow ∈ List.range' right.length rightCount) := by
  simp only [Shares, getElem?_append_replicate]
  constructor
  · rintro ⟨owner, leftFound | ⟨leftNew, rfl⟩, rightFound | ⟨rightNew, _⟩⟩
    · exact .inl ⟨owner, leftFound, rightFound⟩
    · exact absurd (leftBelow owner (List.mem_of_getElem? leftFound)) (by omega)
    · exact absurd (rightBelow _ (List.mem_of_getElem? rightFound)) (lt_irrefl _)
    · exact .inr ⟨leftNew, rightNew⟩
  · rintro (⟨owner, leftFound, rightFound⟩ | ⟨leftNew, rightNew⟩)
    · exact ⟨owner, .inl leftFound, .inl rightFound⟩
    · exact ⟨next, .inr ⟨leftNew, rfl⟩, .inr ⟨rightNew, rfl⟩⟩

/-! ## The tables that name a transaction -/

/-- The tables between the rows of a fragment and their transactions. -/
structure OwnerJoins where
  ofTransaction : JoinToManyIndexBuilder
  toTransaction : JoinToOneIndexBuilder
  toReceipt : JoinToOneIndexBuilder
  toTrace : JoinToOneIndexBuilder

variable {noTraces : Bool}

namespace OwnerJoins

/-- The next row; it is joined to a trace only when the block has traces. -/
def push (joins : OwnerJoins) (noTraces : Bool) (row owner : Nat) : OwnerJoins where
  ofTransaction := joins.ofTransaction.insert owner row
  toTransaction := joins.toTransaction.insert row owner
  toReceipt := joins.toReceipt.insert row owner
  toTrace := if noTraces then joins.toTrace else joins.toTrace.insert row owner

/-- The tables are about the rows of the list. -/
structure Holds (joins : OwnerJoins) (noTraces : Bool) (owners : List Nat) : Prop where
  ofTransaction : joins.ofTransaction.Represents fun transaction row => owners[row]? = some transaction
  toTransaction : ∀ row : Nat, joins.toTransaction[row]? = owners[row]?
  toReceipt : ∀ row : Nat, joins.toReceipt[row]? = owners[row]?
  toTrace : ∀ row : Nat, joins.toTrace[row]? = if noTraces then none else owners[row]?

variable {joins : OwnerJoins} {owners : List Nat}

theorem getElem?_insert_concat {builder : JoinToOneIndexBuilder} (same : ∀ row : Nat, builder[row]? = owners[row]?)
    (owner row : Nat) : (builder.insert owners.length owner)[row]? = (owners ++ [owner])[row]? := by
  rw [JoinToOneIndexBuilder.insert, Std.ExtTreeMap.getElem?_insert, same, List.getElem?_append]
  rcases Nat.lt_trichotomy row owners.length with inside | rfl | outside
  · simp [inside, inside.ne']
  · simp
  · have absent : ¬row < owners.length := by omega
    have later : row - owners.length ≠ 0 := by omega
    simp [absent, outside.ne, later]

theorem Holds.push (holds : joins.Holds noTraces owners) (owner : Nat) :
    (joins.push noTraces owners.length owner).Holds noTraces (owners ++ [owner]) where
  ofTransaction := (holds.ofTransaction.insert owner owners.length).congr fun transaction row => by
    have added := @getElem?_append_replicate owners 1 owner row transaction
    rw [List.replicate_one, List.range'_one, List.mem_singleton] at added
    rw [added, and_comm]
  toTransaction := getElem?_insert_concat holds.toTransaction owner
  toReceipt := getElem?_insert_concat holds.toReceipt owner
  toTrace := by
    cases noTraces with
    | true => exact holds.toTrace
    | false => exact getElem?_insert_concat holds.toTrace owner

end OwnerJoins

/-- One of the loops over what a transaction emitted: the tables, the number of
    rows of the fragment and the rows of the transaction. -/
structure OwnerLoop where
  noTraces : Bool
  joins : OwnerJoins
  rows : Nat
  ids : List Nat

namespace OwnerLoop

def next (loop : OwnerLoop) (owner : Nat) : OwnerLoop where
  noTraces := loop.noTraces
  joins := loop.joins.push loop.noTraces loop.rows owner
  rows := loop.rows + 1
  ids := loop.ids ++ [loop.rows]

structure Holds (loop : OwnerLoop) (untraced : Bool) (owners ids : List Nat) : Prop where
  noTraces : loop.noTraces = untraced
  joins : loop.joins.Holds untraced owners
  rows : loop.rows = owners.length
  ids : loop.ids = ids

variable {loop : OwnerLoop} {owners ids : List Nat}

theorem Holds.next (holds : loop.Holds noTraces owners ids) (owner : Nat) :
    (loop.next owner).Holds noTraces (owners ++ [owner]) (ids ++ [owners.length]) where
  noTraces := holds.noTraces
  joins := by
    rw [OwnerLoop.next, holds.noTraces, holds.rows]
    exact holds.joins.push owner
  rows := by rw [OwnerLoop.next, holds.rows, List.length_append, List.length_singleton]
  ids := by rw [OwnerLoop.next, holds.ids, holds.rows]

/-- The loop numbers the rows of the transaction in order. -/
theorem Holds.foldl {σ ι : Type} {step} (observe : σ → OwnerLoop) (owner : Nat)
    (turn : ∀ state item, observe (step state item) = (observe state).next owner) (items : List ι) {state}
    (holds : (observe state).Holds noTraces owners ids) :
    (observe (items.foldl step state)).Holds noTraces (owners ++ List.replicate items.length owner)
      (ids ++ List.range' owners.length items.length) := by
  induction items generalizing state owners ids with
  | nil => simpa using holds
  | cons item rest ih =>
    have stepped : (observe (step state item)).Holds noTraces (owners ++ [owner]) (ids ++ [owners.length]) := by
      rw [turn]
      exact holds.next owner
    have result := ih stepped
    rw [List.length_append, List.length_singleton, List.append_assoc, List.append_assoc, List.singleton_append,
      List.singleton_append, ← List.replicate_succ, ← List.range'_succ] at result
    exact result

end OwnerLoop

variable {collected : Collected Content} {traces : List (Model.TransactionTraceWithHash Content)}

namespace Collected

def eventJoins (collected : Collected Content) : OwnerJoins where
  ofTransaction := collected.joinTransactionToEvents
  toTransaction := collected.joinEventToTransaction
  toReceipt := collected.joinEventToReceipt
  toTrace := collected.joinEventToTrace

def messageJoins (collected : Collected Content) : OwnerJoins where
  ofTransaction := collected.joinTransactionToMessages
  toTransaction := collected.joinMessageToTransaction
  toReceipt := collected.joinMessageToReceipt
  toTrace := collected.joinMessageToTrace

def eventLoop (state : Collected Content × List Nat) : OwnerLoop where
  noTraces := state.1.blockTraces.isEmpty
  joins := state.1.eventJoins
  rows := state.1.blockEvents.length
  ids := state.2

def messageLoop (state : Collected Content × List Nat) : OwnerLoop where
  noTraces := state.1.blockTraces.isEmpty
  joins := state.1.messageJoins
  rows := state.1.blockMessages.length
  ids := state.2

theorem eventLoop_collectEvent (ref : TransactionRef) (state : Collected Content × List Nat)
    (event : Model.Event × Nat) :
    eventLoop (collectEvent ref state event) = (eventLoop state).next ref.transactionIndex := by
  simp only [eventLoop, collectEvent, OwnerLoop.next, List.length_append, List.length_singleton]
  rfl

theorem messageLoop_collectMessage (ref : TransactionRef) (state : Collected Content × List Nat)
    (message : Model.MsgToL1 × Nat) :
    messageLoop (collectMessage ref state message) = (messageLoop state).next ref.transactionIndex := by
  simp only [messageLoop, collectMessage, OwnerLoop.next, List.length_append, List.length_singleton]
  rfl

/-! ## The tables between events and messages -/

theorem represents_insertSiblings {siblings : JoinToManyIndexBuilder} {Relation} (ids : List Nat) (id : Nat)
    (represents : siblings.Represents Relation) :
    (insertSiblings ids id siblings).Represents fun source target =>
      Relation source target ∨ ∃ other ∈ ids, id ≠ other ∧
        (source = id ∧ target = other ∨ source = other ∧ target = id) := by
  refine .foldl (fun siblings => siblings) _ (fun siblings other Relation before => ?_) ids represents
  by_cases same : id = other
  · rw [if_neg (not_not.mpr same)]
    exact before.congr fun source target => by simp [same]
  · rw [if_pos same]
    exact ((before.insert id other).insert other id).congr fun source target => by simp [same, or_assoc]

/-- Every row of the list has been joined to every other one. -/
theorem siblings_iff {ids : List Nat} {source target} :
    (∃ id ∈ ids, ∃ other ∈ ids, id ≠ other ∧ (source = id ∧ target = other ∨ source = other ∧ target = id)) ↔
      source ∈ ids ∧ target ∈ ids ∧ source ≠ target := by
  constructor
  · rintro ⟨_, member, _, otherMember, distinct, ⟨rfl, rfl⟩ | ⟨rfl, rfl⟩⟩
    · exact ⟨member, otherMember, distinct⟩
    · exact ⟨otherMember, member, distinct.symm⟩
  · rintro ⟨sourceMember, targetMember, distinct⟩
    exact ⟨source, sourceMember, target, targetMember, distinct, .inl ⟨rfl, rfl⟩⟩

section
variable {Relation : Nat → Nat → Prop} (eventIds messageIds : List Nat)

theorem joinEvent_siblings (represents : collected.joinEventToSiblings.Represents Relation) :
    (eventIds.foldl (joinEvent eventIds messageIds) collected).joinEventToSiblings.Represents fun source target =>
      Relation source target ∨ (source ∈ eventIds ∧ target ∈ eventIds ∧ source ≠ target) := by
  refine (JoinToManyIndexBuilder.Represents.foldl joinEventToSiblings _
    (fun _ id => represents_insertSiblings eventIds id) eventIds represents).congr fun source target => ?_
  rw [siblings_iff]

theorem joinMessage_siblings (represents : collected.joinMessageToSiblings.Represents Relation) :
    (messageIds.foldl (joinMessage messageIds) collected).joinMessageToSiblings.Represents fun source target =>
      Relation source target ∨ (source ∈ messageIds ∧ target ∈ messageIds ∧ source ≠ target) := by
  refine (JoinToManyIndexBuilder.Represents.foldl joinMessageToSiblings _
    (fun _ id => represents_insertSiblings messageIds id) messageIds represents).congr fun source target => ?_
  rw [siblings_iff]

theorem joinEvent_messages (represents : collected.joinEventToMessages.Represents Relation) :
    (eventIds.foldl (joinEvent eventIds messageIds) collected).joinEventToMessages.Represents fun source target =>
      Relation source target ∨ (source ∈ eventIds ∧ target ∈ messageIds) := by
  refine (JoinToManyIndexBuilder.Represents.foldl joinEventToMessages
    (fun eventId source target => ∃ messageId ∈ messageIds, source = eventId ∧ target = messageId)
    (fun _ eventId _ before => ?_) eventIds represents).congr fun source target => by simp
  exact .foldl (fun joins => joins) _ (fun _ messageId _ joins => joins.insert eventId messageId) messageIds before

theorem joinEvent_events (represents : collected.joinMessageToEvents.Represents Relation) :
    (eventIds.foldl (joinEvent eventIds messageIds) collected).joinMessageToEvents.Represents fun source target =>
      Relation source target ∨ (source ∈ messageIds ∧ target ∈ eventIds) := by
  refine (JoinToManyIndexBuilder.Represents.foldl joinMessageToEvents
    (fun eventId source target => ∃ messageId ∈ messageIds, source = messageId ∧ target = eventId)
    (fun _ eventId _ before => ?_) eventIds represents).congr fun source target => by simp [and_comm]
  exact .foldl (fun joins => joins) _ (fun _ messageId _ joins => joins.insert messageId eventId) messageIds before

end

/-! ## All the tables of a block -/

/-- The loops that number the rows of a transaction; they return these rows. -/
def numberRows (ref : TransactionRef) (receipt : Model.TransactionReceipt Content) (collected : Collected Content) :
    Collected Content × List Nat × List Nat :=
  let withEvents := receipt.events.zipIdx.foldl (collectEvent ref) (collected, [])
  let withMessages := receipt.messagesSent.zipIdx.foldl (collectMessage ref) (withEvents.1, [])
  (withMessages.1, withEvents.2, withMessages.2)

/-- The loops that join the rows of a transaction with each other. -/
def joinRows (eventIds messageIds : List Nat) (collected : Collected Content) : Collected Content :=
  messageIds.foldl (joinMessage messageIds) (eventIds.foldl (joinEvent eventIds messageIds) collected)

theorem collectTransaction_eq (item : Model.TransactionWithReceipt Content) (index : Nat)
    (collected : Collected Content) :
    collected.collectTransaction (item, index) =
      let numbered := collected.numberRows (refOf item index) item.receipt
      (numbered.1.joinRows numbered.2.1 numbered.2.2).pushTransaction (refOf item index) item := rfl

def spine (collected : Collected Content) :=
  (collected.blockTraces, collected.joinTransactionToTrace, collected.joinTransactionToReceipt)

def crossJoins (collected : Collected Content) :=
  (collected.joinEventToSiblings, collected.joinEventToMessages, collected.joinMessageToEvents,
    collected.joinMessageToSiblings)

theorem numberRows_frame (ref : TransactionRef) (receipt : Model.TransactionReceipt Content)
    (collected : Collected Content) :
    ((collected.numberRows ref receipt).1.spine, (collected.numberRows ref receipt).1.crossJoins) =
      (collected.spine, collected.crossJoins) :=
  (foldl_unchanged (collectMessage ref) (fun state => (state.1.spine, state.1.crossJoins)) (fun _ _ => rfl) _ _).trans
    (foldl_unchanged (collectEvent ref) (fun state => (state.1.spine, state.1.crossJoins)) (fun _ _ => rfl) _
      (collected, []))

section
variable {owners : List Nat} (ref : TransactionRef) (receipt : Model.TransactionReceipt Content)

theorem numberRows_events (holds : (eventLoop (collected, [])).Holds noTraces owners []) :
    (eventLoop ((collected.numberRows ref receipt).1, (collected.numberRows ref receipt).2.1)).Holds noTraces
      (owners ++ List.replicate receipt.events.length ref.transactionIndex)
      (List.range' owners.length receipt.events.length) := by
  have numbered := holds.foldl eventLoop ref.transactionIndex (eventLoop_collectEvent ref) receipt.events.zipIdx
  rw [List.length_zipIdx, List.nil_append] at numbered
  have kept := foldl_unchanged (collectMessage ref)
    (fun state => eventLoop (state.1, (collected.numberRows ref receipt).2.1)) (fun _ _ => rfl)
    receipt.messagesSent.zipIdx ((receipt.events.zipIdx.foldl (collectEvent ref) (collected, [])).1, [])
  exact kept ▸ numbered

theorem numberRows_messages (holds : (messageLoop (collected, [])).Holds noTraces owners []) :
    (messageLoop ((collected.numberRows ref receipt).1, (collected.numberRows ref receipt).2.2)).Holds noTraces
      (owners ++ List.replicate receipt.messagesSent.length ref.transactionIndex)
      (List.range' owners.length receipt.messagesSent.length) := by
  have kept := foldl_unchanged (collectEvent ref) (fun state => messageLoop (state.1, [])) (fun _ _ => rfl)
    receipt.events.zipIdx (collected, [])
  rw [← kept] at holds
  have numbered :=
    holds.foldl messageLoop ref.transactionIndex (messageLoop_collectMessage ref) receipt.messagesSent.zipIdx
  rw [List.length_zipIdx, List.nil_append] at numbered
  exact numbered

end

theorem joinRows_frame (eventIds messageIds : List Nat) (collected : Collected Content) :
    (collected.joinRows eventIds messageIds).spine = collected.spine ∧
      (collected.joinRows eventIds messageIds).eventJoins = collected.eventJoins ∧
      (collected.joinRows eventIds messageIds).messageJoins = collected.messageJoins := by
  let observe (collected : Collected Content) := (collected.spine, collected.eventJoins, collected.messageJoins)
  have same : observe (collected.joinRows eventIds messageIds) = observe collected :=
    (foldl_unchanged (joinMessage messageIds) observe (fun _ _ => rfl) _ _).trans
      (foldl_unchanged (joinEvent eventIds messageIds) observe (fun _ _ => rfl) _ collected)
  simpa only [observe, Prod.mk.injEq] using same

/-- The tables between events and messages relate the rows of the same transaction. -/
structure CrossRelated (collected : Collected Content) (events messages : List Nat) : Prop where
  eventSiblings : collected.joinEventToSiblings.Represents fun source target =>
    Shares events events source target ∧ source ≠ target
  eventMessages : collected.joinEventToMessages.Represents (Shares events messages)
  messageEvents : collected.joinMessageToEvents.Represents (Shares messages events)
  messageSiblings : collected.joinMessageToSiblings.Represents fun source target =>
    Shares messages messages source target ∧ source ≠ target

theorem CrossRelated.of_crossJoins {before after : Collected Content} {events messages}
    (cross : before.CrossRelated events messages) (same : after.crossJoins = before.crossJoins) :
    after.CrossRelated events messages := by
  simp only [crossJoins, Prod.mk.injEq] at same
  obtain ⟨siblings, eventMessages, messageEvents, messageSiblings⟩ := same
  refine ⟨?_, ?_, ?_, ?_⟩
  · exact siblings ▸ cross.eventSiblings
  · exact eventMessages ▸ cross.eventMessages
  · exact messageEvents ▸ cross.messageEvents
  · exact messageSiblings ▸ cross.messageSiblings

theorem CrossRelated.joinRows {events messages next} (cross : collected.CrossRelated events messages)
    (eventsBelow : ∀ owner ∈ events, owner < next) (messagesBelow : ∀ owner ∈ messages, owner < next)
    (eventCount messageCount : Nat) :
    (collected.joinRows (List.range' events.length eventCount) (List.range' messages.length messageCount)).CrossRelated
      (events ++ List.replicate eventCount next) (messages ++ List.replicate messageCount next) := by
  let eventIds := List.range' events.length eventCount
  let messageIds := List.range' messages.length messageCount
  let joined := eventIds.foldl (joinEvent eventIds messageIds) collected
  constructor
  · have kept : (collected.joinRows eventIds messageIds).joinEventToSiblings = joined.joinEventToSiblings :=
      foldl_unchanged (joinMessage messageIds) joinEventToSiblings (fun _ _ => rfl) _ joined
    rw [kept]
    refine (joinEvent_siblings eventIds messageIds cross.eventSiblings).congr fun source target => ?_
    rw [shares_append eventsBelow eventsBelow, or_and_right, and_assoc]
  · have kept : (collected.joinRows eventIds messageIds).joinEventToMessages = joined.joinEventToMessages :=
      foldl_unchanged (joinMessage messageIds) joinEventToMessages (fun _ _ => rfl) _ joined
    rw [kept]
    refine (joinEvent_messages eventIds messageIds cross.eventMessages).congr fun source target => ?_
    rw [shares_append eventsBelow messagesBelow]
  · have kept : (collected.joinRows eventIds messageIds).joinMessageToEvents = joined.joinMessageToEvents :=
      foldl_unchanged (joinMessage messageIds) joinMessageToEvents (fun _ _ => rfl) _ joined
    rw [kept]
    refine (joinEvent_events eventIds messageIds cross.messageEvents).congr fun source target => ?_
    rw [shares_append messagesBelow eventsBelow]
  · have kept : joined.joinMessageToSiblings = collected.joinMessageToSiblings :=
      foldl_unchanged (joinEvent eventIds messageIds) joinMessageToSiblings (fun _ _ => rfl) _ collected
    have before := cross.messageSiblings
    rw [← kept] at before
    refine (joinMessage_siblings messageIds before).congr fun source target => ?_
    rw [shares_append messagesBelow messagesBelow, or_and_right, and_assoc]

/-- What the tables relate for the transactions seen so far. -/
structure Related (collected : Collected Content) (traces : List (Model.TransactionTraceWithHash Content))
    (seen : List (Model.TransactionWithReceipt Content)) : Prop where
  blockTraces : collected.blockTraces = traces.mapIdx traceAt
  toTrace : ∀ row : Nat, collected.joinTransactionToTrace[row]? = (List.range traces.length)[row]?
  toReceipt : ∀ row : Nat, collected.joinTransactionToReceipt[row]? = (List.range seen.length)[row]?
  events : collected.eventJoins.Holds traces.isEmpty (eventOwners seen)
  messages : collected.messageJoins.Holds traces.isEmpty (messageOwners seen)
  cross : collected.CrossRelated (eventOwners seen) (messageOwners seen)

variable {seen : List (Model.TransactionWithReceipt Content)}

theorem Holds.length_events (holds : Holds collected seen) :
    collected.blockEvents.length = (eventOwners seen).length := by
  have body : collected.blockEvents = _ := holds.events.body
  rw [body, List.length_mapIdx, eventOwners, owners, List.length_map]
  rfl

theorem Holds.length_messages (holds : Holds collected seen) :
    collected.blockMessages.length = (messageOwners seen).length := by
  have body : collected.blockMessages = _ := holds.messages.body
  rw [body, List.length_mapIdx, messageOwners, owners, List.length_map]
  rfl

theorem Related.isEmpty (related : Related collected traces seen) : collected.blockTraces.isEmpty = traces.isEmpty := by
  rw [related.blockTraces]
  cases traces with
  | nil => rfl
  | cons => simp

/-- One turn of the loop over the transactions. -/
theorem Related.step (related : Related collected traces seen) (holds : Holds collected seen)
    (item : Model.TransactionWithReceipt Content) :
    Related (collected.collectTransaction (item, seen.length)) traces (seen ++ [item]) := by
  have events : (eventLoop (collected, [])).Holds traces.isEmpty (eventOwners seen) [] :=
    ⟨related.isEmpty, related.events, holds.length_events, rfl⟩
  have messages : (messageLoop (collected, [])).Holds traces.isEmpty (messageOwners seen) [] :=
    ⟨related.isEmpty, related.messages, holds.length_messages, rfl⟩
  have numberedEvents := numberRows_events (refOf item seen.length) item.receipt events
  have numberedMessages := numberRows_messages (refOf item seen.length) item.receipt messages
  obtain ⟨spine, cross⟩ := Prod.mk.inj (numberRows_frame (refOf item seen.length) item.receipt collected)
  rw [collectTransaction_eq]
  generalize collected.numberRows (refOf item seen.length) item.receipt = numbered at *
  obtain ⟨after, eventIds, messageIds⟩ := numbered
  obtain rfl : eventIds = _ := numberedEvents.ids
  obtain rfl : messageIds = _ := numberedMessages.ids
  have crossed := (related.cross.of_crossJoins cross).joinRows owners_lt owners_lt item.receipt.events.length
    item.receipt.messagesSent.length
  obtain ⟨joinedSpine, eventJoins, messageJoins⟩ := joinRows_frame
    (List.range' (eventOwners seen).length item.receipt.events.length)
    (List.range' (messageOwners seen).length item.receipt.messagesSent.length) after
  simp only [Collected.spine, Prod.mk.injEq] at spine joinedSpine
  have moreEvents : eventOwners (seen ++ [item]) = _ := owners_concat _ seen item
  have moreMessages : messageOwners (seen ++ [item]) = _ := owners_concat _ seen item
  constructor
  · exact joinedSpine.1.trans (spine.1.trans related.blockTraces)
  · intro row
    exact (congrArg (·[row]?) (joinedSpine.2.1.trans spine.2.1)).trans (related.toTrace row)
  · intro row
    have same : ∀ row : Nat, (joinRows _ _ after).joinTransactionToReceipt[row]? = (List.range seen.length)[row]? :=
      fun row => (congrArg (·[row]?) (joinedSpine.2.2.trans spine.2.2)).trans (related.toReceipt row)
    have inserted := OwnerJoins.getElem?_insert_concat same seen.length row
    rw [List.length_range] at inserted
    rw [List.length_append, List.length_singleton, List.range_succ]
    exact inserted
  · rw [moreEvents]
    exact eventJoins.symm ▸ numberedEvents.joins
  · rw [moreMessages]
    exact messageJoins.symm ▸ numberedMessages.joins
  · rw [moreEvents, moreMessages]
    exact crossed.of_crossJoins rfl

theorem foldl_collectTrace (traces : List (Model.TransactionTraceWithHash Content)) :
    (traces.foldl collectTrace {}).blockTraces = traces.mapIdx traceAt ∧
      ∀ row : Nat, (traces.foldl collectTrace {}).joinTransactionToTrace[row]? = (List.range traces.length)[row]? := by
  induction traces using List.reverseRecOn with
  | nil => exact ⟨rfl, fun row => by simp⟩
  | append_singleton seen trace ih =>
    obtain ⟨body, joins⟩ := ih
    have count : (seen.foldl collectTrace {}).blockTraces.length = seen.length := by rw [body, List.length_mapIdx]
    rw [List.foldl_concat]
    constructor
    · rw [List.mapIdx_concat, ← body, ← count]
      rfl
    · intro row
      have inserted := OwnerJoins.getElem?_insert_concat joins seen.length row
      rw [List.length_range] at inserted
      rw [List.length_append, List.length_singleton, List.range_succ, ← inserted, collectTrace, count]

theorem collect_nil_related (traces : List (Model.TransactionTraceWithHash Content)) :
    Related (traces.foldl collectTrace {}) traces ([] : List (Model.TransactionWithReceipt Content)) := by
  obtain ⟨body, joins⟩ := foldl_collectTrace traces
  have beside := foldl_unchanged collectTrace (fun collected : Collected Content =>
    (collected.eventJoins, collected.messageJoins, collected.crossJoins, collected.joinTransactionToReceipt))
    (fun _ _ => rfl) traces {}
  simp only [Prod.mk.injEq] at beside
  obtain ⟨eventJoins, messageJoins, cross, receipts⟩ := beside
  have fresh : ∀ noTraces, OwnerJoins.Holds ⟨∅, ∅, ∅, ∅⟩ noTraces [] :=
    fun noTraces => ⟨.congr .empty (by simp), by simp, by simp, by simp⟩
  have apart : ({} : Collected Content).CrossRelated [] [] :=
    ⟨.congr .empty (by simp [Shares]), .congr .empty (by simp [Shares]), .congr .empty (by simp [Shares]),
      .congr .empty (by simp [Shares])⟩
  refine ⟨body, joins, fun row => ?_, eventJoins ▸ fresh _, messageJoins ▸ fresh _, apart.of_crossJoins cross⟩
  rw [receipts]
  simp

/-- What the tables relate at the end. -/
theorem collect_related (transactions : List (Model.TransactionWithReceipt Content))
    (traces : List (Model.TransactionTraceWithHash Content)) :
    Related (collect transactions traces) traces transactions := by
  induction transactions using List.reverseRecOn with
  | nil => exact collect_nil_related traces
  | append_singleton seen item ih =>
    rw [collect_concat]
    exact ih.step (collect_holds seen traces) item

end Collected

/-! ## The joins of a block -/

/-- The fragments of the transactions of a block. -/
inductive Kind where
  | transaction
  | receipt
  | event
  | message
  | trace
  deriving DecidableEq

def Kind.fragmentId : Kind → FragmentId
  | transaction => Fragment.transactionFragmentId
  | receipt => Fragment.receiptFragmentId
  | event => Fragment.eventFragmentId
  | message => Fragment.messageFragmentId
  | trace => Fragment.traceFragmentId

/-- There is a table from the first fragment to the second. -/
def Kind.JoinsTo : Kind → Kind → Prop
  | .receipt, _ | .trace, _ => False
  | .transaction, target => target ≠ .transaction
  | .event, _ | .message, _ => True

/-- The messages of a block before they are encoded. -/
structure Bodies (Content : Type) where
  transactions : List (Proto.Transaction Content)
  receipts : List (Proto.TransactionReceipt Content)
  events : List Proto.Event
  messages : List Proto.MessageToL1
  traces : List (Proto.TransactionTrace Content)

namespace Bodies

def encode (encoding : Encoding Content) (bodies : Bodies Content) : List BodyFragment :=
  [⟨Fragment.transactionFragmentId, "transaction", bodies.transactions.map encoding.transaction⟩,
    ⟨Fragment.receiptFragmentId, "receipt", bodies.receipts.map encoding.receipt⟩,
    ⟨Fragment.eventFragmentId, "event", bodies.events.map encoding.event⟩,
    ⟨Fragment.messageFragmentId, "message", bodies.messages.map encoding.message⟩,
    ⟨Fragment.traceFragmentId, "trace", bodies.traces.map encoding.trace⟩]

/-- The `transaction_index` of a row. -/
def owner (bodies : Bodies Content) : Kind → Nat → Option Nat
  | .transaction, row => bodies.transactions[row]?.bind fun transaction => transaction.metadata.map (·.transactionIndex)
  | .receipt, row => bodies.receipts[row]?.bind fun receipt => receipt.metadata.map (·.transactionIndex)
  | .event, row => bodies.events[row]?.map (·.transactionIndex)
  | .message, row => bodies.messages[row]?.map (·.transactionIndex)
  | .trace, row => bodies.traces[row]?.map (·.transactionIndex)

/-- Two rows belong to the same transaction, and they are not the same row. -/
def Related (bodies : Bodies Content) (source target : Kind) (sourceRow targetRow : Nat) : Prop :=
  (∃ transaction, bodies.owner source sourceRow = some transaction ∧ bodies.owner target targetRow = some transaction) ∧
    (source = target → sourceRow ≠ targetRow)

end Bodies

/-- The messages of what transactions emitted: each has the number of its row, and
    there is one for every position in a receipt. -/
structure Numbering {α β : Type} (messages : List β) (number owner position : β → Nat)
    (transactions : List (Model.TransactionWithReceipt Content))
    (select : Model.TransactionReceipt Content → List α) : Prop where
  number : ∀ (row : Nat) message, messages[row]? = some message → number message = row
  positions : ∀ index place, (∃ message ∈ messages, owner message = index ∧ position message = place) ↔
    ∃ item, transactions[index]? = some item ∧ place < (select item.receipt).length
  once : (messages.map fun message => (owner message, position message)).Nodup

/-- The messages of the transactions and traces of a block. -/
def bodiesOf (transactions : List (Model.TransactionWithReceipt Content))
    (traces : List (Model.TransactionTraceWithHash Content)) : Bodies Content where
  transactions := transactions.mapIdx transactionAt
  receipts := transactions.mapIdx receiptAt
  events := (eventsOf transactions).mapIdx eventAt
  messages := (messagesOf transactions).mapIdx messageAt
  traces := traces.mapIdx traceAt

def Kind.owners (transactions : List (Model.TransactionWithReceipt Content))
    (traces : List (Model.TransactionTraceWithHash Content)) : Kind → List Nat
  | .transaction | .receipt => List.range transactions.length
  | .event => eventOwners transactions
  | .message => messageOwners transactions
  | .trace => List.range traces.length

section
variable {α β : Type} {select : Model.TransactionReceipt Content → List α}

theorem mem_emitted {emission} : emission ∈ emitted select transactions ↔
    ∃ item, transactions[emission.transactionIndex]? = some item ∧ emission.receipt = item.receipt ∧
      (select item.receipt)[emission.indexInTransaction]? = some emission.item := by
  simp only [emitted, emittedBy, List.mem_flatMap, List.mem_map, List.mem_zipIdx_iff_getElem?, Prod.exists]
  constructor
  · rintro ⟨item, _, atIndex, _, _, atPlace, rfl⟩
    exact ⟨item, atIndex, rfl, atPlace⟩
  · rintro ⟨item, atIndex, same, atPlace⟩
    refine ⟨item, _, atIndex, _, _, atPlace, ?_⟩
    rw [← same]

theorem nodup_emitted (select : Model.TransactionReceipt Content → List α)
    (transactions : List (Model.TransactionWithReceipt Content)) :
    ((emitted select transactions).map fun emission =>
      (emission.transactionIndex, emission.indexInTransaction)).Nodup := by
  induction transactions using List.reverseRecOn with
  | nil => simp [emitted]
  | append_singleton seen item ih =>
    rw [Collected.emitted_concat, List.map_append]
    refine ih.append ?_ ?_
    · have places : (emittedBy select seen.length item.receipt).map
          (fun emission => (emission.transactionIndex, emission.indexInTransaction)) =
          (List.range' 0 (select item.receipt).length).map (seen.length, ·) := by
        rw [← List.zipIdx_map_snd, emittedBy, List.map_map, List.map_map]
        rfl
      rw [places]
      exact List.Nodup.map (Prod.mk_right_injective seen.length) List.nodup_range'
    · intro pair earlier later
      obtain ⟨emission, member, rfl⟩ := List.mem_map.mp earlier
      obtain ⟨_, otherMember, same⟩ := List.mem_map.mp later
      obtain ⟨_, _, rfl⟩ := List.mem_map.mp otherMember
      have below := owners_lt emission.transactionIndex (List.mem_map.mpr ⟨emission, member, rfl⟩)
      exact below.ne (Prod.mk.inj same).1.symm

/-- What is emitted, numbered in order. -/
theorem numbering_emitted {make : Nat → Emitted α Content → β} {number owner position}
    (isNumber : ∀ row emission, number (make row emission) = row)
    (isOwner : ∀ row emission, owner (make row emission) = emission.transactionIndex)
    (isPosition : ∀ row emission, position (make row emission) = emission.indexInTransaction) :
    Numbering ((emitted select transactions).mapIdx make) number owner position transactions select where
  number row message found := by
    obtain ⟨emission, _, rfl⟩ := Option.map_eq_some_iff.mp (List.getElem?_mapIdx.symm.trans found)
    exact isNumber row emission
  positions index place := by
    constructor
    · rintro ⟨message, member, rfl, rfl⟩
      obtain ⟨-, inside, rfl⟩ := List.mem_mapIdx.mp member
      obtain ⟨item, found, -, placed⟩ := mem_emitted.mp (List.getElem_mem inside)
      rw [isOwner, isPosition]
      exact ⟨item, found, (List.getElem?_eq_some_iff.mp placed).1⟩
    · rintro ⟨item, found, inside⟩
      let emission : Emitted α Content := ⟨(select item.receipt)[place], place, index, item.receipt⟩
      have member : emission ∈ emitted select transactions :=
        mem_emitted.mpr ⟨item, found, rfl, List.getElem?_eq_getElem inside⟩
      obtain ⟨row, rowInside, isRow⟩ := List.getElem_of_mem member
      refine ⟨_, List.mem_mapIdx.mpr ⟨row, rowInside, rfl⟩, ?_, ?_⟩
      · rw [isOwner, isRow]
      · rw [isPosition, isRow]
  once := by
    have places : ((emitted select transactions).mapIdx make).map (fun message => (owner message, position message)) =
        (emitted select transactions).map fun emission => (emission.transactionIndex, emission.indexInTransaction) := by
      refine List.ext_getElem? fun row => ?_
      simp [Function.comp_def, isOwner, isPosition]
    rw [places]
    exact nodup_emitted select transactions

end

section
theorem map_getElem?_row {α : Type} (items : List α) (row : Nat) :
    items[row]?.map (fun _ => row) = (List.range items.length)[row]? := by
  rcases Nat.lt_or_ge row items.length with inside | outside
  · rw [List.getElem?_eq_getElem inside, List.getElem?_range inside, Option.map_some]
  · rw [List.getElem?_eq_none outside, List.getElem?_eq_none (by rwa [List.length_range]), Option.map_none]

theorem owner_bodiesOf (kind : Kind) (row : Nat) :
    (bodiesOf transactions traces).owner kind row = (kind.owners transactions traces)[row]? := by
  cases kind with
  | transaction | receipt =>
    simp only [Kind.owners, ← map_getElem?_row, Bodies.owner, bodiesOf, List.getElem?_mapIdx]
    cases transactions[row]? with
    | none | some => rfl
  | trace =>
    simp only [Kind.owners, ← map_getElem?_row, Bodies.owner, bodiesOf, List.getElem?_mapIdx, Option.map_map]
    rfl
  | event | message =>
    simp only [Bodies.owner, bodiesOf, Kind.owners, eventOwners, messageOwners, owners, List.getElem?_mapIdx,
      List.getElem?_map, Option.map_map]
    rfl

theorem getElem?_range_eq_some {count row owner} :
    (List.range count)[row]? = some owner ↔ row < count ∧ row = owner := by
  simp [List.getElem?_eq_some_iff]

theorem shares_range_right {left count leftRow rightRow} :
    Shares left (List.range count) leftRow rightRow ↔ left[leftRow]? = some rightRow ∧ rightRow < count := by
  simp only [Shares, getElem?_range_eq_some]
  constructor
  · rintro ⟨_, found, inside, rfl⟩
    exact ⟨found, inside⟩
  · rintro ⟨found, inside⟩
    exact ⟨rightRow, found, inside, rfl⟩

theorem shares_range_of_lt {left count leftRow rightRow} (below : ∀ owner ∈ left, owner < count) :
    Shares left (List.range count) leftRow rightRow ↔ left[leftRow]? = some rightRow := by
  rw [shares_range_right]
  exact and_iff_left_of_imp fun found => below rightRow (List.mem_of_getElem? found)

theorem shares_comm {left right leftRow rightRow} :
    Shares left right leftRow rightRow ↔ Shares right left rightRow leftRow :=
  exists_congr fun _ => and_comm

namespace Collected

def joinOf (collected : Collected Content) : Kind → JoinFragment
  | .transaction => collected.transactionJoin
  | .receipt => ⟨Fragment.receiptFragmentId, []⟩
  | .event => collected.eventJoin
  | .message => collected.messageJoin
  | .trace => ⟨Fragment.traceFragmentId, []⟩

def tableOf (collected : Collected Content) : Kind → Kind → Option JoinTo
  | .transaction, .receipt => some (.one collected.joinTransactionToReceipt.build)
  | .transaction, .event => some (.many collected.joinTransactionToEvents.build)
  | .transaction, .message => some (.many collected.joinTransactionToMessages.build)
  | .transaction, .trace => some (.one collected.joinTransactionToTrace.build)
  | .event, .transaction => some (.one collected.joinEventToTransaction.build)
  | .event, .receipt => some (.one collected.joinEventToReceipt.build)
  | .event, .event => some (.many collected.joinEventToSiblings.build)
  | .event, .message => some (.many collected.joinEventToMessages.build)
  | .event, .trace => some (.one collected.joinEventToTrace.build)
  | .message, .transaction => some (.one collected.joinMessageToTransaction.build)
  | .message, .receipt => some (.one collected.joinMessageToReceipt.build)
  | .message, .event => some (.many collected.joinMessageToEvents.build)
  | .message, .message => some (.many collected.joinMessageToSiblings.build)
  | .message, .trace => some (.one collected.joinMessageToTrace.build)
  | .transaction, .transaction | .receipt, _ | .trace, _ => none

theorem find?_joinOf (collected : Collected Content) (source target : Kind) :
    ((collected.joinOf source).joins.find? (·.toFragmentId == target.fragmentId)).map (·.index) =
      collected.tableOf source target := by
  cases source <;> cases target <;> rfl

section
variable {source target : Kind} {table : JoinTo} {sourceRow targetRow : Nat}

/-- A table that names the owner of a row. -/
theorem maps_owner {builder : JoinToOneIndexBuilder} {owners : List Nat} {count}
    (same : ∀ row : Nat, builder[row]? = owners[row]?) (below : ∀ owner ∈ owners, owner < count) :
    JoinTo.Maps (.one builder.build) sourceRow targetRow ↔ Shares owners (List.range count) sourceRow targetRow := by
  rw [JoinToOneIndexBuilder.maps_build, same, shares_range_of_lt below]

theorem maps_owned {joins : OwnerJoins} {owners count} (holds : joins.Holds noTraces owners)
    (below : ∀ owner ∈ owners, owner < count) :
    JoinTo.Maps (.many joins.ofTransaction.build) sourceRow targetRow ↔
      Shares (List.range count) owners sourceRow targetRow := by
  rw [JoinToManyIndexBuilder.maps_build, holds.ofTransaction.relates, shares_comm, shares_range_of_lt below]

/-- The tables that have nothing to do with traces. -/
theorem Related.maps (related : Related collected traces transactions)
    (isTable : collected.tableOf source target = some table) (notTrace : target ≠ .trace) :
    table.Maps sourceRow targetRow ↔
      Shares (source.owners transactions traces) (target.owners transactions traces) sourceRow targetRow ∧
        (source = target → sourceRow ≠ targetRow) := by
  have apart (distinct : source ≠ target) (maps : table.Maps sourceRow targetRow ↔
      Shares (source.owners transactions traces) (target.owners transactions traces) sourceRow targetRow) :
      table.Maps sourceRow targetRow ↔
        Shares (source.owners transactions traces) (target.owners transactions traces) sourceRow targetRow ∧
          (source = target → sourceRow ≠ targetRow) := by
    rw [maps, and_iff_left fun same => absurd same distinct]
  have siblings {builder : JoinToManyIndexBuilder} {Relation : Nat → Nat → Prop}
      (represents : builder.Represents Relation) :
      JoinTo.Maps (.many builder.build) sourceRow targetRow ↔ Relation sourceRow targetRow :=
    JoinToManyIndexBuilder.maps_build.trans (represents.relates _ _)
  cases source with
  | transaction =>
    cases target with
    | transaction => cases isTable
    | receipt =>
      cases isTable
      exact apart nofun (maps_owner related.toReceipt fun _ => List.mem_range.mp)
    | event =>
      cases isTable
      exact apart nofun (maps_owned related.events owners_lt)
    | message =>
      cases isTable
      exact apart nofun (maps_owned related.messages owners_lt)
    | trace => exact absurd rfl notTrace
  | event =>
    cases target with
    | transaction =>
      cases isTable
      exact apart nofun (maps_owner related.events.toTransaction owners_lt)
    | receipt =>
      cases isTable
      exact apart nofun (maps_owner related.events.toReceipt owners_lt)
    | event =>
      cases isTable
      rw [siblings related.cross.eventSiblings]
      simp only [Kind.owners, forall_const]
    | message =>
      cases isTable
      exact apart nofun (siblings related.cross.eventMessages)
    | trace => exact absurd rfl notTrace
  | message =>
    cases target with
    | transaction =>
      cases isTable
      exact apart nofun (maps_owner related.messages.toTransaction owners_lt)
    | receipt =>
      cases isTable
      exact apart nofun (maps_owner related.messages.toReceipt owners_lt)
    | event =>
      cases isTable
      exact apart nofun (siblings related.cross.messageEvents)
    | message =>
      cases isTable
      rw [siblings related.cross.messageSiblings]
      simp only [Kind.owners, forall_const]
    | trace => exact absurd rfl notTrace
  | receipt | trace => cases isTable

/-- The trace of a transaction is looked for at the position of the transaction,
    whichever traces there are. -/
theorem Related.maps_trace (related : Related collected traces transactions)
    (isTable : collected.tableOf source .trace = some table) :
    table.Maps sourceRow targetRow ↔
      if source = .transaction then sourceRow = targetRow ∧ targetRow < traces.length
      else traces ≠ [] ∧ (source.owners transactions traces)[sourceRow]? = some targetRow := by
  cases source with
  | transaction =>
    cases isTable
    rw [JoinToOneIndexBuilder.maps_build, related.toTrace, getElem?_range_eq_some, if_pos rfl]
    constructor
    · rintro ⟨inside, rfl⟩
      exact ⟨rfl, inside⟩
    · rintro ⟨rfl, inside⟩
      exact ⟨inside, rfl⟩
  | event =>
    cases isTable
    rw [JoinToOneIndexBuilder.maps_build, if_neg (by simp)]
    refine (Eq.congr_left (related.events.toTrace _)).trans ?_
    cases traces <;> simp [Kind.owners]
  | message =>
    cases isTable
    rw [JoinToOneIndexBuilder.maps_build, if_neg (by simp)]
    refine (Eq.congr_left (related.messages.toTrace _)).trans ?_
    cases traces <;> simp [Kind.owners]
  | receipt | trace => cases isTable

end

end Collected

variable {source target : Kind} {sourceRow targetRow : Nat}

/-- The stream finds the tables of a block. -/
theorem joined_iff_tableOf {encoding header stateDiff} :
    Fragments.Joined (.block ⟨indexBlock encoding header transactions traces stateDiff⟩) source.fragmentId
        target.fragmentId sourceRow targetRow ↔
      ∃ table, (Collected.collect transactions traces).tableOf source target = some table ∧
        table.Maps sourceRow targetRow := by
  have read : (Fragments.FragmentAccess.block ⟨indexBlock encoding header transactions traces stateDiff⟩).getJoinFragment
      source.fragmentId = .ok ((Collected.collect transactions traces).joinOf source) := by
    rw [indexBlock, collectBlockBodyAndIndex, Collected.sort_collect]
    cases source <;> rfl
  simp only [Fragments.Joined, read, ← Collected.find?_joinOf, Option.map_eq_some_iff, Except.ok.injEq,
    ↓existsAndEq, and_true, true_and]

/-- With one trace for every transaction, or none at all, the traces are joined as the rest. -/
theorem maps_of_aligned (aligned : traces = [] ∨ traces.length = transactions.length) {table : JoinTo}
    (isTable : (Collected.collect transactions traces).tableOf source target = some table) :
    table.Maps sourceRow targetRow ↔
      Shares (source.owners transactions traces) (target.owners transactions traces) sourceRow targetRow ∧
        (source = target → sourceRow ≠ targetRow) := by
  have related := Collected.collect_related transactions traces
  by_cases toTrace : target = .trace
  · subst toTrace
    have other : source ≠ .trace := by
      rintro rfl
      cases isTable
    rw [related.maps_trace isTable, Kind.owners.eq_def transactions traces .trace, shares_range_right]
    simp only [other, false_implies, and_true]
    have below : ∀ owner ∈ source.owners transactions traces, owner < transactions.length := by
      cases source with
      | transaction | receipt => exact fun _ => List.mem_range.mp
      | event | message => exact owners_lt
      | trace => exact absurd rfl other
    split_ifs with isTransaction
    · subst isTransaction
      have short : traces.length ≤ transactions.length := by
        rcases aligned with rfl | same
        · exact Nat.zero_le _
        · exact same.le
      rw [Kind.owners, getElem?_range_eq_some]
      omega
    · rcases aligned with rfl | same
      · simp
      · rw [same, and_comm]
        refine and_congr_right fun found => ?_
        have inside := below targetRow (List.mem_of_getElem? found)
        refine iff_of_true (fun none => ?_) inside
        rw [none, List.length_nil] at same
        omega
  · exact related.maps isTable toTrace

theorem body_collectBlockBodyAndIndex (encoding : Encoding Content)
    (transactions : List (Model.TransactionWithReceipt Content))
    (traces : List (Model.TransactionTraceWithHash Content)) :
    (collectBlockBodyAndIndex encoding transactions traces).body = (bodiesOf transactions traces).encode encoding := by
  have holds := Collected.collect_holds transactions traces
  have transactionsBody : (Collected.collect transactions traces).blockTransactions = _ := holds.transactions.body
  have eventsBody : (Collected.collect transactions traces).blockEvents = _ := holds.events.body
  have messagesBody : (Collected.collect transactions traces).blockMessages = _ := holds.messages.body
  have tracesBody := (Collected.collect_related transactions traces).blockTraces
  rw [collectBlockBodyAndIndex, Collected.sort_collect]
  simp only [Collected.fragments, transactionsBody, holds.receipts, eventsBody, messagesBody, tracesBody]
  rfl

theorem exists_tableOf_iff : (∃ table, collected.tableOf source target = some table) ↔ source.JoinsTo target := by
  cases source <;> cases target <;> simp [Collected.tableOf, Kind.JoinsTo]

theorem related_bodiesOf :
    (bodiesOf transactions traces).Related source target sourceRow targetRow ↔
      Shares (source.owners transactions traces) (target.owners transactions traces) sourceRow targetRow ∧
        (source = target → sourceRow ≠ targetRow) := by
  simp only [Bodies.Related, owner_bodiesOf, Shares]

theorem joined_iff_related (aligned : traces = [] ∨ traces.length = transactions.length)
    (encoding : Encoding Content) (header : HeaderFragment) (stateDiff : Model.StateDiff) (source target : Kind)
    (sourceRow targetRow : Nat) :
    Fragments.Joined (.block ⟨indexBlock encoding header transactions traces stateDiff⟩) source.fragmentId
        target.fragmentId sourceRow targetRow ↔
      source.JoinsTo target ∧ (bodiesOf transactions traces).Related source target sourceRow targetRow := by
  rw [joined_iff_tableOf, related_bodiesOf, ← exists_tableOf_iff, ← exists_and_right]
  exact exists_congr fun table => and_congr_right fun isTable => maps_of_aligned aligned isTable

theorem Bodies.Related.symm {bodies : Bodies Content} (related : bodies.Related source target sourceRow targetRow) :
    bodies.Related target source targetRow sourceRow := by
  obtain ⟨⟨transaction, atSource, atTarget⟩, distinct⟩ := related
  exact ⟨⟨transaction, atTarget, atSource⟩, fun same => (distinct same.symm).symm⟩

/-- A block relates its rows by the transactions they belong to. -/
structure Relational (block : Block) (bodies : Bodies Content)
    (transactions : List (Model.TransactionWithReceipt Content)) : Prop where
  transactionRows : ∀ row < transactions.length,
    bodies.owner .transaction row = some row ∧ bodies.owner .receipt row = some row
  traceRows : ∀ row < bodies.traces.length, bodies.owner .trace row = some row
  eventRows : Numbering bodies.events Proto.Event.eventIndex Proto.Event.transactionIndex
    Proto.Event.eventIndexInTransaction transactions Model.TransactionReceipt.events
  messageRows : Numbering bodies.messages Proto.MessageToL1.messageIndex Proto.MessageToL1.transactionIndex
    Proto.MessageToL1.messageIndexInTransaction transactions Model.TransactionReceipt.messagesSent
  joined : ∀ source target sourceRow targetRow,
    Fragments.Joined (.block ⟨block⟩) source.fragmentId target.fragmentId sourceRow targetRow ↔
      source.JoinsTo target ∧ bodies.Related source target sourceRow targetRow
  converse : ∀ event message,
    Fragments.Joined (.block ⟨block⟩) Fragment.eventFragmentId Fragment.messageFragmentId event message ↔
      Fragments.Joined (.block ⟨block⟩) Fragment.messageFragmentId Fragment.eventFragmentId message event
  symmetric : ∀ fragmentId, fragmentId = Fragment.eventFragmentId ∨ fragmentId = Fragment.messageFragmentId →
    Std.Symm (Fragments.Joined (.block ⟨block⟩) fragmentId fragmentId)
  irreflexive : ∀ fragmentId, fragmentId = Fragment.eventFragmentId ∨ fragmentId = Fragment.messageFragmentId →
    Std.Irrefl (Fragments.Joined (.block ⟨block⟩) fragmentId fragmentId)

/-- The joins of a block are those over the column of the transactions. -/
theorem indexBlock_relational (encoding : Encoding Content) (header : HeaderFragment)
    (transactions : List (Model.TransactionWithReceipt Content))
    (traces : List (Model.TransactionTraceWithHash Content)) (stateDiff : Model.StateDiff)
    (aligned : traces = [] ∨ traces.length = transactions.length) :
    (collectBlockBodyAndIndex encoding transactions traces).body = (bodiesOf transactions traces).encode encoding ∧
      Relational (indexBlock encoding header transactions traces stateDiff) (bodiesOf transactions traces)
        transactions := by
  have joined := joined_iff_related aligned encoding header stateDiff
  refine ⟨body_collectBlockBodyAndIndex encoding transactions traces, ⟨?_, ?_, ?_, ?_, joined, ?_, ?_, ?_⟩⟩
  · intro row inside
    rw [owner_bodiesOf, owner_bodiesOf]
    exact ⟨List.getElem?_range inside, List.getElem?_range inside⟩
  · intro row inside
    rw [bodiesOf, List.length_mapIdx] at inside
    rw [owner_bodiesOf]
    exact List.getElem?_range inside
  · exact numbering_emitted (fun _ _ => rfl) (fun _ _ => rfl) (fun _ _ => rfl)
  · exact numbering_emitted (fun _ _ => rfl) (fun _ _ => rfl) (fun _ _ => rfl)
  · intro event message
    refine (joined .event .message event message).trans (Iff.trans ?_ (joined .message .event message event).symm)
    exact and_congr_right fun _ => ⟨Bodies.Related.symm, Bodies.Related.symm⟩
  · rintro fragmentId (rfl | rfl)
    · exact ⟨fun left right isJoined => (joined .event .event right left).mpr
        ((joined .event .event left right).mp isJoined |>.imp_right Bodies.Related.symm)⟩
    · exact ⟨fun left right isJoined => (joined .message .message right left).mpr
        ((joined .message .message left right).mp isJoined |>.imp_right Bodies.Related.symm)⟩
  · rintro fragmentId (rfl | rfl)
    · exact ⟨fun row isJoined => ((joined .event .event row row).mp isJoined).2.2 rfl rfl⟩
    · exact ⟨fun row isJoined => ((joined .message .message row row).mp isJoined).2.2 rfl rfl⟩

end

/-! A block of two transactions; the second one has emitted two events and a message. -/

namespace TwoTransactions

def event : Model.Event := ⟨.ofByte 7, [.ofByte 8], []⟩

def first : Model.TransactionWithReceipt Unit := ⟨.deploy (), .deploy ⟨.ofByte 1, [], [], .succeeded, ()⟩⟩

def second : Model.TransactionWithReceipt Unit :=
  ⟨.invoke (.v3 ()), .invoke ⟨.ofByte 2, [⟨.ofByte 7, .ofByte 9, []⟩], [event, event], .succeeded, ()⟩⟩

def header : HeaderFragment := ⟨[]⟩

def stateDiff : Model.StateDiff := ⟨[], [], [], [], [], []⟩

def firstTrace : Model.TransactionTraceWithHash Unit := ⟨.ofByte 1, ()⟩

def secondTrace : Model.TransactionTraceWithHash Unit := ⟨.ofByte 2, ()⟩

/-- Every transaction has its trace. -/
theorem relational :
    Relational (indexBlock .noBytes header [first, second] [firstTrace, secondTrace] stateDiff)
      (bodiesOf [first, second] [firstTrace, secondTrace]) [first, second] :=
  (indexBlock_relational .noBytes header [first, second] [firstTrace, secondTrace] stateDiff (.inr rfl)).2

end TwoTransactions

end Starkstream.Starknet
