import Starkstream.DataStream.Encoding
import Starkstream.DataStream.Stream

/-! # Sending the pending block when its content changes

At the head a stream filters every generation of the pending block, and it sends one
only if the hash of its content is not that of what it sent last.  The content are the
written bytes.  The ids of a row stand there in the order in which its hash set lists
them, and that order is arbitrary: another set with the same ids may list them in
another one.  So the content of two equal generations is the same in every
evaluation exactly if no row is asked for with two ids.
-/

namespace Starkstream.Fragments

open Query Wire

/-- The order in which the hash sets of one evaluation list their filter ids.  There is a
    set for each row that is sent for each block filter; both are given by their position. -/
structure HashOrder where
  list : Nat → Nat → Finset FilterId → List FilterId
  nodup : ∀ position row filterIds, (list position row filterIds).Nodup
  toFinset : ∀ position row filterIds, (list position row filterIds).toFinset = filterIds

/-- The rows with their ids in the order of the hash sets. -/
def FilteredBlock.listed (order : HashOrder) (position : Nat) (block : FilteredBlock) : List BodyItem :=
  block.items.mapIdx fun row item =>
    ⟨item.fragmentId, (order.list position row item.filterIds).map UInt32.ofNat, item.message⟩

/-- The end of a turn of `filter_fragment`: the two passes over what was matched. -/
def FilteredBlock.encode (order : HashOrder) (position : Nat) (block : FilteredBlock) :
    Outcome DataStreamError Bytes := do
  let _ ← encodedSize block.header (block.listed order position)
  encodeBuffer block.header (block.listed order position)

/-- `filter_fragment` with what it puts out: a buffer for each block filter. -/
def filterBuffers (access : FragmentAccess) (names : FragmentNames) (isLive : Bool) (order : HashOrder)
    (blockFilters : List Query.BlockFilter) : Outcome DataStreamError (List Bytes) :=
  blockFilters.zipIdx.mapM fun entry => do
    let block ← filterBlock access names isLive entry.1
    block.encode order entry.2

structure Data where
  cursor : Option Cursor
  endCursor : Option Cursor
  data : List Bytes
  finality : DataFinality
  production : DataProduction
  deriving DecidableEq

/-- `access` is the block of the generation, and `permit` says whether there is a place
    in the channel before the stream is cancelled.  The result is what is sent and the
    hash that is kept. -/
def sendPendingBlock (sha256 : Bytes → Bytes) (names : FragmentNames) (blockFilters : List Query.BlockFilter)
    (head : Cursor) (access : FragmentAccess) (order : HashOrder) (permit : Bool) (contentHash : Bytes) :
    Outcome DataStreamError (Option Data × Bytes) := do
  let blocks ← filterBuffers access names false order blockFilters
  if blocks.any (!·.isEmpty) then
    let newContentHash := sha256 blocks.flatten
    if newContentHash = contentHash then return (none, contentHash)
    else if permit then
      return (some ⟨some head, some (Cursor.newPending (head.number + 1)), blocks, .pending, .live⟩, newContentHash)
    else return (none, contentHash)
  else return (none, contentHash)

/-! ## The order of the ids -/

/-- The sum of the sizes is checked at every id, and fails only if the whole is too large. -/
theorem packedFilterIdsPayloadLen_eq (filterIds : List UInt32) :
    packedFilterIdsPayloadLen filterIds = checkedAdd "packed filter IDs size overflow" 0 (packed filterIds).length := by
  have started : ∀ (filterIds : List UInt32) start, start < 2 ^ 64 → filterIds.foldlM (fun len filterId =>
      checkedAdd "packed filter IDs size overflow" len (encodedLenVarint filterId.toNat)) start =
        checkedAdd "packed filter IDs size overflow" start (packed filterIds).length := by
    intro filterIds
    induction filterIds with
    | nil =>
      intro start small
      exact (if_pos small).symm
    | cons filterId rest ih =>
      intro start small
      have length : (packed (filterId :: rest)).length =
          encodedLenVarint filterId.toNat + (packed rest).length := by
        simp only [packed, encodePacked, List.map_cons, List.flatMap_cons, List.length_append, length_encodeVarint]
      rw [List.foldlM_cons, length]
      by_cases fits : start + encodedLenVarint filterId.toNat < 2 ^ 64
      · have first : checkedAdd "packed filter IDs size overflow" start (encodedLenVarint filterId.toNat) =
            .ok (start + encodedLenVarint filterId.toNat) := if_pos fits
        rw [first]
        refine (ih _ fits).trans ?_
        simp only [checkedAdd, Nat.add_assoc]
      · have large : ¬start + (encodedLenVarint filterId.toNat + (packed rest).length) < 2 ^ 64 := by omega
        simp only [checkedAdd, if_neg fits, if_neg large]
        rfl
  exact started filterIds 0 (by decide)

namespace BodyItem

/-- The same row, with its ids in another order. -/
structure Reordered (item other : BodyItem) : Prop where
  fragmentId : other.fragmentId = item.fragmentId
  filterIds : other.filterIds.Perm item.filterIds
  message : other.message = item.message

namespace Reordered

variable {item other : BodyItem}

variable (reordered : item.Reordered other)
include reordered

theorem length_packed : (packed other.filterIds).length = (packed item.filterIds).length :=
  ((reordered.filterIds.map UInt32.toNat).flatMap_right encodeVarint).length_eq

theorem encodedLen : other.encodedLen = item.encodedLen := by
  simp only [BodyItem.encodedLen, encodedBodyItemLen, encodedFilterIdsLen, packedFilterIdsPayloadLen_eq,
    reordered.length_packed, reordered.fragmentId, reordered.message]

theorem length_idsField : (idsField other.filterIds).length = (idsField item.filterIds).length := by
  have empty : other.filterIds = [] ↔ item.filterIds = [] := by
    rw [← List.length_eq_zero_iff, ← List.length_eq_zero_iff, reordered.filterIds.length_eq]
  simp only [idsField, empty]
  split
  next => rfl
  next => rw [length_encodeField, length_encodeField, reordered.length_packed]

theorem length_payload : other.payload.length = item.payload.length := by
  rw [payload, payload, List.length_append, List.length_append, reordered.length_idsField, reordered.message]

theorem length_field : other.field.length = item.field.length := by
  rw [field, field, length_encodeField, length_encodeField, reordered.length_payload, reordered.fragmentId]

theorem eq_of_field (same : other.field = item.field) : other = item := by
  obtain ⟨fragmentId, filterIds, message⟩ := item
  obtain ⟨otherFragmentId, otherIds, otherMessage⟩ := other
  obtain rfl : otherFragmentId = fragmentId := reordered.fragmentId
  obtain rfl : otherMessage = message := reordered.message
  have samePayload : payload ⟨otherFragmentId, otherIds, otherMessage⟩ =
      payload ⟨otherFragmentId, filterIds, otherMessage⟩ := by
    rw [field, field, encodeField, encodeField, reordered.length_payload] at same
    exact List.append_cancel_left same
  have sameField : idsField otherIds = idsField filterIds := List.append_cancel_right samePayload
  have samePacked : packed otherIds = packed filterIds := by
    by_cases none : filterIds = []
    · have otherNone : otherIds = [] := List.Perm.eq_nil (none ▸ reordered.filterIds)
      rw [none, otherNone]
    · have otherSome : otherIds ≠ [] := fun otherNone => none (List.Perm.eq_nil (otherNone ▸ reordered.filterIds.symm))
      rw [idsField, idsField, if_neg none, if_neg otherSome, encodeField, encodeField, reordered.length_packed] at sameField
      exact List.append_cancel_left sameField
  have small : ∀ (ids : List UInt32), ∀ value ∈ ids.map (·.toNat), value < 2 ^ 64 := by
    intro ids value member
    obtain ⟨filterId, _, rfl⟩ := List.mem_map.mp member
    have bounded := filterId.toNat_lt
    omega
  have sameValues := (readAll_encodePacked (small otherIds)).symm.trans
    ((congrArg (readAll readVarint) samePacked).trans (readAll_encodePacked (small filterIds)))
  rw [List.map_injective_iff.mpr (fun _ _ => UInt32.toNat_inj.mp) (Option.some.inj sameValues)]

end Reordered

end BodyItem

variable {items : List BodyItem}

theorem encodedSize_eq_ok {header size} (summed : encodedSize header items = .ok size) :
    (∀ data, header = some data → data.length < 2 ^ 64) ∧
      ∃ lens, List.Forall₂ (fun item len => BodyItem.encodedLen item = .ok len) items lens := by
  obtain ⟨start, isStart, folded⟩ := bind_eq_ok.mp summed
  refine ⟨(headerLen_eq_ok isStart).2, ?_⟩
  clear isStart summed
  induction items generalizing start with
  | nil => exact ⟨[], .nil⟩
  | cons item rest ih =>
    obtain ⟨middle, one, others⟩ := bind_eq_ok.mp (List.foldlM_cons.symm.trans folded)
    obtain ⟨len, isLen, _⟩ := bind_eq_ok.mp one
    obtain ⟨lens, each⟩ := ih middle others
    exact ⟨len :: lens, .cons isLen each⟩

theorem encodedSize_reordered {header others} (reordered : List.Forall₂ BodyItem.Reordered items others) :
    encodedSize header others = encodedSize header items := by
  refine congrArg (headerLen header >>= ·) (funext fun start => ?_)
  induction reordered generalizing start with
  | nil => rfl
  | cons first _ ih =>
    rw [List.foldlM_cons, List.foldlM_cons, first.encodedLen]
    exact congrArg (_ >>= ·) (funext ih)

/-- Blocks of the same rows are written with the same size, and their bytes tell the
    orders of the ids apart. -/
theorem flatMap_field_reordered {others} (reordered : List.Forall₂ BodyItem.Reordered items others) :
    (others.flatMap BodyItem.field).length = (items.flatMap BodyItem.field).length ∧
      (others.flatMap BodyItem.field = items.flatMap BodyItem.field → others = items) := by
  induction reordered with
  | nil => exact ⟨rfl, fun _ => rfl⟩
  | cons first _ ih =>
    obtain ⟨restLength, rest⟩ := ih
    simp only [List.flatMap_cons]
    refine ⟨by rw [List.length_append, List.length_append, first.length_field, restLength], fun same => ?_⟩
    obtain ⟨sameField, sameRest⟩ := List.append_inj same first.length_field
    rw [first.eq_of_field sameField, rest sameRest]

namespace HashOrder

theorem perm (order other : HashOrder) (position row : Nat) (filterIds : Finset FilterId) :
    (other.list position row filterIds).Perm (order.list position row filterIds) :=
  List.perm_of_nodup_nodup_toFinset_eq (other.nodup ..) (order.nodup ..)
    ((other.toFinset ..).trans (order.toFinset ..).symm)

theorem reordered (order other : HashOrder) (position : Nat) (block : FilteredBlock) :
    List.Forall₂ BodyItem.Reordered (block.listed order position) (block.listed other position) := by
  refine List.forall₂_iff_get.mpr ⟨by simp [FilteredBlock.listed], fun row inFirst inSecond => ?_⟩
  simp only [FilteredBlock.listed, List.get_eq_getElem, List.getElem_mapIdx]
  exact ⟨rfl, (order.perm other ..).map _, rfl⟩

end HashOrder

/-- A block that is written with one order of the ids is written with every order, to
    as many bytes; they are the same bytes only if the orders are the same. -/
theorem FilteredBlock.encode_reordered {order position} {block : FilteredBlock} {buffer}
    (encoded : block.encode order position = .ok buffer) (other : HashOrder) :
    ∃ otherBuffer, block.encode other position = .ok otherBuffer ∧ otherBuffer.length = buffer.length ∧
      (otherBuffer = buffer ↔ block.listed other position = block.listed order position) := by
  obtain ⟨size, summed, written⟩ := bind_eq_ok.mp encoded
  have reordered := order.reordered other position block
  have otherSummed := (encodedSize_reordered reordered).trans summed
  obtain ⟨smallHeader, _, each⟩ := encodedSize_eq_ok summed
  obtain ⟨_, _, otherEach⟩ := encodedSize_eq_ok otherSummed
  cases written.symm.trans (encodeBuffer_eq smallHeader each)
  obtain ⟨sameLength, tell⟩ := flatMap_field_reordered reordered
  refine ⟨_, bind_eq_ok.mpr ⟨size, otherSummed, encodeBuffer_eq smallHeader otherEach⟩, ?_, ?_⟩
  · rw [List.length_append, List.length_append, sameLength]
  · constructor
    · intro same
      exact tell (List.append_cancel_left same)
    · intro same
      rw [same]

/-- Two loops whose buffers have the same lengths write the same bytes exactly if all
    their buffers are the same. -/
theorem mapM_flatten_eq_iff {ε α : Type} {next other : α → Except ε Bytes} {Same : α → Prop} {items : List α}
    (each : ∀ item ∈ items, ∀ buffer, next item = .ok buffer →
      ∃ otherBuffer, other item = .ok otherBuffer ∧ otherBuffer.length = buffer.length ∧
        (otherBuffer = buffer ↔ Same item))
    {buffers : List Bytes} (mapped : items.mapM next = .ok buffers) :
    ∃ others, items.mapM other = .ok others ∧ others.flatten.length = buffers.flatten.length ∧
      (others.flatten = buffers.flatten ↔ ∀ item ∈ items, Same item) := by
  induction items generalizing buffers with
  | nil =>
    cases mapped
    exact ⟨[], rfl, rfl, by simp⟩
  | cons item rest ih =>
    rw [List.mapM_cons] at mapped
    obtain ⟨buffer, isBuffer, more⟩ := bind_eq_ok.mp mapped
    obtain ⟨_, isLater, result⟩ := bind_eq_ok.mp more
    cases result
    obtain ⟨first, others⟩ := List.forall_mem_cons.mp each
    obtain ⟨otherBuffer, isOther, sameLength, same⟩ := first buffer isBuffer
    obtain ⟨otherLater, isOtherLater, laterLength, sameLater⟩ := ih others isLater
    refine ⟨otherBuffer :: otherLater, ?_, ?_, ?_⟩
    · rw [List.mapM_cons]
      exact bind_eq_ok.mpr ⟨otherBuffer, isOther, bind_eq_ok.mpr ⟨otherLater, isOtherLater, rfl⟩⟩
    · rw [List.flatten_cons, List.flatten_cons, List.length_append, List.length_append, sameLength, laterLength]
    · rw [List.forall_mem_cons, ← same, ← sameLater]
      constructor
      · intro sameBytes
        exact List.append_inj sameBytes sameLength
      · rintro ⟨rfl, sameRest⟩
        exact congrArg (otherBuffer ++ ·) sameRest

section Content

variable {access : FragmentAccess} {names : FragmentNames} {isLive : Bool} {blockFilters : List Query.BlockFilter}

/-- The two orders list the ids of every row that is sent in the same way. -/
def SameLists (access : FragmentAccess) (names : FragmentNames) (isLive : Bool) (order other : HashOrder)
    (entry : Query.BlockFilter × Nat) : Prop :=
  ∀ block, filterBlock access names isLive entry.1 = .ok block → block.listed other entry.2 = block.listed order entry.2

theorem filterBuffers_reordered {order : HashOrder} {buffers : List Bytes}
    (filtered : filterBuffers access names isLive order blockFilters = .ok buffers) (other : HashOrder) :
    ∃ others, filterBuffers access names isLive other blockFilters = .ok others ∧
      others.flatten.length = buffers.flatten.length ∧
      (others.flatten = buffers.flatten ↔ ∀ entry ∈ blockFilters.zipIdx, SameLists access names isLive order other entry) := by
  refine mapM_flatten_eq_iff (fun entry _ buffer written => ?_) filtered
  obtain ⟨block, isBlock, encoded⟩ := bind_eq_ok.mp written
  obtain ⟨otherBuffer, isOther, sameLength, same⟩ := block.encode_reordered encoded other
  refine ⟨otherBuffer, bind_eq_ok.mpr ⟨block, isBlock, isOther⟩, sameLength, same.trans ?_⟩
  constructor
  · intro sameLists found isFound
    cases isBlock.symm.trans isFound
    exact sameLists
  · intro sameLists
    exact sameLists block isBlock

theorem filterBuffers_congr {other} (order : HashOrder) (same : ∀ blockFilter ∈ blockFilters,
      filterBlock other names isLive blockFilter = filterBlock access names isLive blockFilter) :
    filterBuffers other names isLive order blockFilters = filterBuffers access names isLive order blockFilters := by
  have each : ∀ entry ∈ blockFilters.zipIdx, filterBlock other names isLive entry.1 = filterBlock access names isLive entry.1 :=
    fun entry member => same entry.1 (List.fst_mem_of_mem_zipIdx member)
  rw [filterBuffers, filterBuffers]
  generalize blockFilters.zipIdx = entries at each ⊢
  induction entries with
  | nil => rfl
  | cons entry rest ih =>
    obtain ⟨first, others⟩ := List.forall_mem_cons.mp each
    rw [List.mapM_cons, List.mapM_cons, first, ih others]

end Content

/-! ## Rows with several ids -/

section Several

variable {access : FragmentAccess} {names : FragmentNames} {isLive : Bool} {blockFilter : Query.BlockFilter}
  {block : FilteredBlock}

theorem exists_of_forall₂ {α β : Type} {Related : α → β → Prop} {items others}
    (related : List.Forall₂ Related items others) {item} (member : item ∈ items) :
    ∃ other ∈ others, Related item other := by
  induction related with
  | nil => cases member
  | cons first _ ih =>
    rcases List.mem_cons.mp member with rfl | later
    · exact ⟨_, List.mem_cons_self, first⟩
    · obtain ⟨other, inside, isRelated⟩ := ih later
      exact ⟨other, List.mem_cons_of_mem _ inside, isRelated⟩

/-- No row is asked for by filters with different ids. -/
def AskedOnce (access : FragmentAccess) (blockFilter : Query.BlockFilter) : Prop :=
  ∀ fragmentId row filterId otherId, Asked access blockFilter fragmentId row filterId →
    Asked access blockFilter fragmentId row otherId → filterId = otherId

variable {fragmentId : FragmentId} {filterId : FilterId}

theorem Asked.exists_filter {row} (asked : Asked access blockFilter fragmentId row filterId) :
    ∃ entry ∈ blockFilter.iter, ∃ filter ∈ entry.2, filter.filterId = filterId := by
  rcases asked with ⟨filter, ⟨_, listed, inFilters, _⟩, isId⟩ | ⟨_, filter, _, ⟨_, listed, inFilters, _⟩, isId, _⟩
  · exact ⟨_, listed, filter, inFilters, isId⟩
  · exact ⟨_, listed, filter, inFilters, isId⟩

theorem Exact.exists_item (exact_ : Exact access isLive blockFilter block) {row : Nat}
    (asked : Asked access blockFilter fragmentId row filterId) :
    ∃ item ∈ block.items, ∀ otherId, otherId ∈ item.filterIds ↔ Asked access blockFilter fragmentId row otherId := by
  classical
  obtain ⟨_, _, selectedIff, sent⟩ := exact_.items
  let all : Finset FilterId := (blockFilter.iter.flatMap fun entry => entry.2.map (·.filterId)).toFinset
  let selected : SelectedRow := ⟨fragmentId, row, all.filter (Asked access blockFilter fragmentId row)⟩
  have ids : ∀ otherId, otherId ∈ selected.filterIds ↔ Asked access blockFilter fragmentId row otherId := by
    intro otherId
    refine Finset.mem_filter.trans (and_iff_right_of_imp fun isAsked => ?_)
    obtain ⟨entry, listed, filter, inside, isId⟩ := isAsked.exists_filter
    exact List.mem_toFinset.mpr (List.mem_flatMap.mpr ⟨entry, listed, List.mem_map.mpr ⟨filter, inside, isId⟩⟩)
  obtain ⟨item, inside, _, sameIds, _⟩ :=
    exists_of_forall₂ sent ((selectedIff selected).mpr ⟨⟨filterId, (ids filterId).mpr asked⟩, ids⟩)
  exact ⟨item, inside, fun otherId => sameIds ▸ ids otherId⟩

theorem Exact.asked_of_item (exact_ : Exact access isLive blockFilter block) {item : MatchedItem}
    (member : item ∈ block.items) : ∃ fragmentId row,
      ∀ filterId ∈ item.filterIds, Asked access blockFilter fragmentId row filterId := by
  obtain ⟨_, _, selectedIff, sent⟩ := exact_.items
  obtain ⟨selected, inside, _, sameIds, _⟩ := exists_of_forall₂ sent.flip member
  refine ⟨selected.fragmentId, selected.row, fun filterId isId => ?_⟩
  exact (((selectedIff selected).mp inside).2 filterId).mp (sameIds ▸ isId)

theorem SameLists.of_askedOnce (once : AskedOnce access blockFilter) (order other : HashOrder) (position : Nat) :
    SameLists access names isLive order other (blockFilter, position) := by
  intro block filtered
  have exact_ := filterBlock_exact filtered
  refine List.ext_getElem (by simp [FilteredBlock.listed]) fun row inFirst inSecond => ?_
  have inItems : row < block.items.length := by simpa [FilteredBlock.listed] using inFirst
  obtain ⟨fragmentId, sourceRow, asked⟩ := exact_.asked_of_item (List.getElem_mem inItems)
  have perm := order.perm other position row block.items[row].filterIds
  have alike : ∀ filterId ∈ order.list position row block.items[row].filterIds,
      ∀ otherId ∈ order.list position row block.items[row].filterIds, filterId = otherId := by
    intro filterId member otherId otherMember
    have isId : ∀ {found}, found ∈ order.list position row block.items[row].filterIds →
        found ∈ block.items[row].filterIds := fun inList => by
      rw [← order.toFinset position row block.items[row].filterIds]
      exact List.mem_toFinset.mpr inList
    exact once fragmentId sourceRow filterId otherId (asked _ (isId member)) (asked _ (isId otherMember))
  have same : other.list position row block.items[row].filterIds = order.list position row block.items[row].filterIds := by
    cases isList : order.list position row block.items[row].filterIds with
    | nil => exact List.Perm.eq_nil (isList ▸ perm)
    | cons first rest =>
      cases rest with
      | nil => exact List.perm_singleton.mp (isList ▸ perm)
      | cons second =>
        have unequal := (List.nodup_cons.mp (isList ▸ order.nodup position row block.items[row].filterIds)).1
        rw [isList] at alike
        exact absurd (alike first (by simp) second (by simp)) (fun equal => unequal (by simp [equal]))
  simp only [FilteredBlock.listed, List.getElem_mapIdx, same]

namespace HashOrder

def startingWith (filterId : FilterId) : HashOrder where
  list _ _ filterIds := if filterId ∈ filterIds then filterId :: (filterIds.erase filterId).sort (· ≤ ·)
    else filterIds.sort (· ≤ ·)
  nodup _ _ filterIds := by
    split
    next => exact List.nodup_cons.mpr ⟨by simp, Finset.sort_nodup _ _⟩
    next => exact Finset.sort_nodup _ _
  toFinset _ _ filterIds := by
    split
    next inside => rw [List.toFinset_cons, Finset.sort_toFinset, Finset.insert_erase inside]
    next => exact Finset.sort_toFinset _ _

theorem startingWith_list {filterId filterIds} (member : filterId ∈ filterIds) (position row : Nat) :
    (startingWith filterId).list position row filterIds =
      filterId :: (filterIds.erase filterId).sort (· ≤ ·) := if_pos member

end HashOrder

def Narrow (blockFilter : Query.BlockFilter) : Prop :=
  ∀ entry ∈ blockFilter.iter, ∀ filter ∈ entry.2, filter.filterId < 2 ^ 32

theorem eq_of_sameLists (narrow : Narrow blockFilter)
    (filtered : filterBlock access names isLive blockFilter = .ok block) {row otherId}
    (asked : Asked access blockFilter fragmentId row filterId)
    (otherAsked : Asked access blockFilter fragmentId row otherId) {position}
    (same : SameLists access names isLive (.startingWith filterId) (.startingWith otherId) (blockFilter, position)) :
    filterId = otherId := by
  have small : ∀ {found}, Asked access blockFilter fragmentId row found → found < 2 ^ 32 := by
    intro found isAsked
    obtain ⟨entry, listed, filter, inside, rfl⟩ := isAsked.exists_filter
    exact narrow entry listed filter inside
  obtain ⟨_, member, ids⟩ := (filterBlock_exact filtered).exists_item asked
  obtain ⟨index, inItems, rfl⟩ := List.getElem_of_mem member
  have sameItem := congrArg (fun items : List BodyItem => items[index]?.map (·.filterIds.head?)) (same block filtered)
  simp only [FilteredBlock.listed, List.getElem?_mapIdx, List.getElem?_eq_getElem inItems, Option.map_some,
    HashOrder.startingWith_list ((ids filterId).mpr asked), HashOrder.startingWith_list ((ids otherId).mpr otherAsked),
    List.map_cons, List.head?_cons, Option.some.injEq] at sameItem
  have sameNat := congrArg UInt32.toNat sameItem
  rw [UInt32.toNat_ofNat', UInt32.toNat_ofNat', Nat.mod_eq_of_lt (small otherAsked),
    Nat.mod_eq_of_lt (small asked)] at sameNat
  exact sameNat.symm

end Several

/-! ## Two generations -/

section Generations

variable {sha256 : Bytes → Bytes} {names : FragmentNames} {blockFilters : List Query.BlockFilter} {head : Cursor}
  {access : FragmentAccess} {order : HashOrder} {permit : Bool} {contentHash : Bytes} {blocks : List Bytes}

theorem any_isEmpty (blocks : List Bytes) : blocks.any (!·.isEmpty) = !blocks.flatten.isEmpty := by
  induction blocks with
  | nil => rfl
  | cons block rest ih =>
    rw [List.any_cons, ih, List.flatten_cons]
    cases block <;> simp

/-- What a call does depends on the written bytes only. -/
theorem sendPendingBlock_eq (filtered : filterBuffers access names false order blockFilters = .ok blocks) :
    sendPendingBlock sha256 names blockFilters head access order permit contentHash =
      .ok (if blocks.flatten = [] ∨ sha256 blocks.flatten = contentHash ∨ permit = false then (none, contentHash)
        else (some ⟨some head, some (Cursor.newPending (head.number + 1)), blocks, .pending, .live⟩,
          sha256 blocks.flatten)) := by
  rw [sendPendingBlock, filtered]
  refine (?_ : (if blocks.any (!·.isEmpty) then _ else _) = _)
  rw [any_isEmpty]
  by_cases empty : blocks.flatten = []
  · simp [empty]
    rfl
  · by_cases known : sha256 blocks.flatten = contentHash
    · simp [empty, known]
      rfl
    · cases permit with
      | false | true => simp [empty, known]; rfl

/-- In all evaluations of a generation and the one after it, the two have the same hash,
    and once the first was dealt with the second is not sent. -/
structure SentOnce (sha256 : Bytes → Bytes) (names : FragmentNames) (blockFilters : List Query.BlockFilter)
    (head : Cursor) (access next : FragmentAccess) : Prop where
  sameHash : ∀ order nextOrder blocks nextBlocks,
    filterBuffers access names false order blockFilters = .ok blocks →
    filterBuffers next names false nextOrder blockFilters = .ok nextBlocks →
    sha256 nextBlocks.flatten = sha256 blocks.flatten
  notAgain : ∀ order nextOrder permit contentHash sent,
    sendPendingBlock sha256 names blockFilters head access order true contentHash = .ok sent →
    sendPendingBlock sha256 names blockFilters head next nextOrder permit sent.2 = .ok (none, sent.2)

/-- The hash function tells apart the ways in which the block can be written. -/
def Separates (sha256 : Bytes → Bytes) (names : FragmentNames) (blockFilters : List Query.BlockFilter)
    (access : FragmentAccess) : Prop :=
  ∀ order other blocks others, filterBuffers access names false order blockFilters = .ok blocks →
    filterBuffers access names false other blockFilters = .ok others →
    sha256 others.flatten = sha256 blocks.flatten → others.flatten = blocks.flatten

theorem flatten_eq_of_askedOnce (once : ∀ blockFilter ∈ blockFilters, AskedOnce access blockFilter)
    {order other blocks others} (filtered : filterBuffers access names false order blockFilters = .ok blocks)
    (otherFiltered : filterBuffers access names false other blockFilters = .ok others) :
    others.flatten = blocks.flatten := by
  obtain ⟨_, isFound, _, sameIff⟩ := filterBuffers_reordered filtered other
  cases otherFiltered.symm.trans isFound
  apply sameIff.mpr
  intro entry member
  exact .of_askedOnce (once entry.1 (List.fst_mem_of_mem_zipIdx member)) order other entry.2

/-- A generation with the content of the one before is not sent, whatever the orders of
    the ids are in the two evaluations, exactly if no row is asked for with two ids. -/
theorem sentOnce_iff_askedOnce {next : FragmentAccess} (narrow : ∀ blockFilter ∈ blockFilters, Narrow blockFilter)
    (same : ∀ blockFilter ∈ blockFilters,
      filterBlock next names false blockFilter = filterBlock access names false blockFilter)
    (written : ∃ order blocks, filterBuffers access names false order blockFilters = .ok blocks)
    (separates : Separates sha256 names blockFilters access) :
    SentOnce sha256 names blockFilters head access next ↔
      ∀ blockFilter ∈ blockFilters, AskedOnce access blockFilter := by
  constructor
  · intro once blockFilter member fragmentId row filterId otherId asked otherAsked
    obtain ⟨order, blocks, filtered⟩ := written
    obtain ⟨ones, isOnes, _, _⟩ := filterBuffers_reordered filtered (.startingWith filterId)
    obtain ⟨others, isOthers, _, sameIff⟩ := filterBuffers_reordered isOnes (.startingWith otherId)
    have sameHash := once.sameHash _ _ ones others isOnes ((filterBuffers_congr _ same).trans isOthers)
    have sameLists := sameIff.mp (separates _ _ ones others isOnes isOthers sameHash)
    obtain ⟨position, inFilters, rfl⟩ := List.getElem_of_mem member
    have inEntries : (blockFilters[position], position) ∈ blockFilters.zipIdx :=
      List.mk_mem_zipIdx_iff_getElem?.mpr (List.getElem?_eq_getElem inFilters)
    obtain ⟨buffer, _, isBuffer⟩ := exists_of_forall₂ (forall₂_of_mapM filtered) inEntries
    obtain ⟨block, isBlock, _⟩ := bind_eq_ok.mp isBuffer
    exact eq_of_sameLists (narrow _ member) isBlock asked otherAsked (sameLists _ inEntries)
  · intro once
    have sameContent : ∀ order nextOrder blocks nextBlocks,
        filterBuffers access names false order blockFilters = .ok blocks →
        filterBuffers next names false nextOrder blockFilters = .ok nextBlocks →
        nextBlocks.flatten = blocks.flatten := by
      intro order nextOrder blocks nextBlocks filtered nextFiltered
      exact flatten_eq_of_askedOnce once filtered ((filterBuffers_congr nextOrder same).symm.trans nextFiltered)
    refine ⟨fun order nextOrder blocks nextBlocks filtered nextFiltered => ?_, ?_⟩
    · rw [sameContent order nextOrder blocks nextBlocks filtered nextFiltered]
    · intro order nextOrder permit contentHash sent isSent
      obtain ⟨blocks, filtered, _⟩ := bind_eq_ok.mp isSent
      obtain ⟨nextBlocks, isNext, _⟩ := filterBuffers_reordered filtered nextOrder
      have nextFiltered := (filterBuffers_congr nextOrder same).trans isNext
      rw [sendPendingBlock_eq filtered] at isSent
      rw [sendPendingBlock_eq nextFiltered, sameContent order nextOrder blocks nextBlocks filtered nextFiltered]
      by_cases unsent : blocks.flatten = [] ∨ sha256 blocks.flatten = contentHash ∨ true = false
      · rw [if_pos unsent] at isSent
        cases isSent
        rw [if_pos]
        rcases unsent with empty | known | impossible
        · exact .inl empty
        · exact .inr (.inl known)
        · cases impossible
      · rw [if_neg unsent] at isSent
        cases isSent
        exact congrArg Except.ok (if_pos (.inr (.inl rfl)))

end Generations

namespace TwoFilters

/-! Two filters that match the row of the block. -/

def index : IndexFragment :=
  ⟨2, 0, 1, [⟨0, .bitmap (BitmapIndexBuilder.build (BitmapIndexBuilder.insert ∅ (.uint8 1) 0))⟩]⟩

def block : Block := ⟨⟨[7]⟩, ⟨[index]⟩, ⟨[]⟩, [⟨2, "transaction", [[5]]⟩]⟩

def names : FragmentNames := FragmentNames.base.insert 2 "transaction"

def one : Filter := ⟨4, 2, [⟨0, .uint8 1⟩], []⟩

def other : Filter := ⟨5, 2, [⟨0, .uint8 1⟩], []⟩

def twice : Query.BlockFilter := Query.BlockFilter.addFilter (Query.BlockFilter.addFilter {} one) other

/-- What is written when the filter with the id is listed first. -/
def content (first second : UInt8) : Bytes := [10, 1, 7, 18, 5, 10, 2, first, second, 5]

def head : Cursor := ⟨0, ⟨[1]⟩⟩

theorem written_four : filterBuffers (.block ⟨block⟩) names false (.startingWith 4) [twice] = .ok [content 4 5] := by
  decide +kernel

theorem written_five : filterBuffers (.block ⟨block⟩) names false (.startingWith 5) [twice] = .ok [content 5 4] := by
  decide +kernel

theorem narrow : Narrow twice := by
  unfold Narrow
  decide

/-- SHA-256 of the two contents.  Other bytes are kept, behind more zeros than a hash is long. -/
def sha256 (bytes : Bytes) : Bytes :=
  if bytes = content 4 5 then
    [110, 47, 133, 251, 229, 76, 220, 248, 220, 46, 137, 100, 141, 178, 115, 147, 64, 96, 177, 58, 198, 70, 187, 213,
      252, 172, 25, 25, 60, 226, 192, 41]
  else if bytes = content 5 4 then
    [66, 123, 8, 104, 171, 6, 219, 254, 96, 213, 81, 182, 196, 217, 64, 232, 88, 84, 50, 248, 129, 168, 12, 176, 67,
      200, 156, 204, 5, 241, 129, 67]
  else List.replicate 33 0 ++ bytes

theorem sha256_injective : Function.Injective sha256 := by
  intro left right same
  unfold sha256 at same
  split_ifs at same <;> simp_all

theorem twice_sentOnce_iff : SentOnce sha256 names [twice] head (.block ⟨block⟩) (.block ⟨block⟩) ↔
    ∀ blockFilter ∈ [twice], AskedOnce (.block ⟨block⟩) blockFilter := by
  apply sentOnce_iff_askedOnce
  · intro blockFilter member
    rw [List.mem_singleton.mp member]
    exact narrow
  · intro _ _
    rfl
  · exact ⟨_, _, written_four⟩
  · intro _ _ _ _ _ _ same
    exact sha256_injective same

def message (written : Bytes) : Data := ⟨some head, some (Cursor.newPending 1), [written], .pending, .live⟩

/-- The same block is sent twice when its row lists the ids in another order. -/
theorem sent_twice : content 4 5 ≠ content 5 4 ∧ ∀ sha256 : Bytes → Bytes,
    sha256 (content 4 5) ≠ [] → sha256 (content 5 4) ≠ sha256 (content 4 5) →
      sendPendingBlock sha256 names [twice] head (.block ⟨block⟩) (.startingWith 4) true [] =
        .ok (some (message (content 4 5)), sha256 (content 4 5)) ∧
      sendPendingBlock sha256 names [twice] head (.block ⟨block⟩) (.startingWith 5) true (sha256 (content 4 5)) =
        .ok (some (message (content 5 4)), sha256 (content 5 4)) := by
  refine ⟨by decide, fun sha256 new apart => ⟨?_, ?_⟩⟩
  · rw [sendPendingBlock_eq written_four]
    exact congrArg Except.ok (if_neg (by simpa [content] using new))
  · rw [sendPendingBlock_eq written_five]
    exact congrArg Except.ok (if_neg (by simpa [content] using apart))

end TwoFilters

end Starkstream.Fragments
