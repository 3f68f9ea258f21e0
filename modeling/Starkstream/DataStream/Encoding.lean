import Starkstream.DataStream.FilterResult
import Starkstream.Lib.Wire

/-! # Writing a filtered block

A filtered block is sent as a protobuf message: a field for the header and one for
each row, numbered by the fragment.  The ids of the filters are put in front of the
message of the row, as its repeated field 1.  The sizes are computed in a first pass
and the bytes are written in a second one.

Sizes are of 64 bits and their sums are checked.
-/

namespace Starkstream.Fragments

open Wire

def filterIdsTag : Nat := 1

/-- `checked_add`. -/
def checkedAdd (attachment : String) (left right : Nat) : Outcome DataStreamError Nat :=
  if left + right < 2 ^ 64 then .ok (left + right) else Outcome.fail ⟨⟩ [attachment]

def encodedLengthDelimitedFieldLen (tag payloadLen : Nat) : Outcome DataStreamError Nat := do
  let len ← checkedAdd "length-delimited protobuf field size overflow" (keyLen tag) (encodedLenVarint payloadLen)
  checkedAdd "length-delimited protobuf field size overflow" len payloadLen

def encodedHeaderLen (fragmentId : FragmentId) (dataLen : Nat) : Outcome DataStreamError Nat :=
  encodedLengthDelimitedFieldLen fragmentId.toNat dataLen

def encodedBodyItemLenFromParts (fragmentId : FragmentId) (filterIdsLen messageLen : Nat) :
    Outcome DataStreamError Nat := do
  let payloadLen ← checkedAdd "filtered body item payload size overflow" filterIdsLen messageLen
  encodedLengthDelimitedFieldLen fragmentId.toNat payloadLen

def packedFilterIdsPayloadLen (filterIds : List UInt32) : Outcome DataStreamError Nat :=
  filterIds.foldlM (fun len filterId =>
    checkedAdd "packed filter IDs size overflow" len (encodedLenVarint filterId.toNat)) 0

def filterIdsFieldLen (payloadLen : Nat) : Outcome DataStreamError Nat :=
  if payloadLen = 0 then .ok 0 else encodedLengthDelimitedFieldLen filterIdsTag payloadLen

def encodedFilterIdsLen (filterIds : List UInt32) : Outcome DataStreamError Nat := do
  let payloadLen ← packedFilterIdsPayloadLen filterIds
  filterIdsFieldLen payloadLen

def encodedBodyItemLen (fragmentId : FragmentId) (filterIds : List UInt32) (messageLen : Nat) :
    Outcome DataStreamError Nat := do
  let filterIdsLen ← encodedFilterIdsLen filterIds
  encodedBodyItemLenFromParts fragmentId filterIdsLen messageLen

def encodeFilterIds (filterIds : List UInt32) (payloadLen : Nat) (output : Bytes) : Bytes :=
  if payloadLen = 0 then output
  else
    filterIds.foldl (fun output filterId => output ++ encodeVarint filterId.toNat)
      (output ++ encodeKey filterIdsTag lengthDelimitedType ++ encodeVarint payloadLen)

def encodeBodyItem (fragmentId : FragmentId) (filterIds : List UInt32) (message output : Bytes) :
    Outcome DataStreamError Bytes := do
  let filterIdsPayloadLen ← packedFilterIdsPayloadLen filterIds
  let filterIdsLen ← filterIdsFieldLen filterIdsPayloadLen
  let payloadLen ← checkedAdd "filtered body item payload size overflow" filterIdsLen message.length
  let output := output ++ encodeKey fragmentId.toNat lengthDelimitedType ++ encodeVarint payloadLen
  return encodeFilterIds filterIds filterIdsPayloadLen output ++ message

def encodeHeader (fragmentId : FragmentId) (data output : Bytes) : Bytes :=
  output ++ encodeKey fragmentId.toNat lengthDelimitedType ++ encodeVarint (data.length % 2 ^ 64) ++ data

/-- A matched row as it is written; the ids are in the order in which they are given. -/
structure BodyItem where
  fragmentId : FragmentId
  filterIds : List UInt32
  message : Bytes

def headerLen (header : Option Bytes) : Outcome DataStreamError Nat :=
  match header with
  | some data => encodedHeaderLen headerFragmentId data.length
  | none => .ok 0

def BodyItem.encodedLen (item : BodyItem) : Outcome DataStreamError Nat :=
  encodedBodyItemLen item.fragmentId item.filterIds item.message.length

/-- The first pass of `filter_fragment`: the size of the buffer. -/
def encodedSize (header : Option Bytes) (items : List BodyItem) : Outcome DataStreamError Nat := do
  let start ← headerLen header
  items.foldlM (fun size item => do
    let len ← item.encodedLen
    checkedAdd "filtered block encoded size overflow" size len) start

/-- The second pass: what is written to the buffer. -/
def encodeBuffer (header : Option Bytes) (items : List BodyItem) : Outcome DataStreamError Bytes :=
  items.foldlM (fun output item => encodeBodyItem item.fragmentId item.filterIds item.message output)
    (match header with
      | some data => encodeHeader headerFragmentId data []
      | none => [])

/-! ## Fields -/

theorem checkedAdd_eq_ok {attachment left right total} :
    checkedAdd attachment left right = .ok total ↔ total = left + right ∧ left + right < 2 ^ 64 := by
  rw [checkedAdd]
  split
  next small =>
      constructor
      · exact fun isTotal => ⟨(Except.ok.inj isTotal).symm, small⟩
      · exact fun both => congrArg Except.ok both.1.symm
  next large =>
      constructor
      · intro isTotal
        cases isTotal
      · exact fun both => absurd both.2 large

theorem encodedLengthDelimitedFieldLen_eq_ok {tag payloadLen len}
    (predicted : encodedLengthDelimitedFieldLen tag payloadLen = .ok len) :
    len = keyLen tag + encodedLenVarint payloadLen + payloadLen ∧ payloadLen < 2 ^ 64 := by
  obtain ⟨_, isStart, isLen⟩ := bind_eq_ok.mp predicted
  obtain ⟨rfl, _⟩ := checkedAdd_eq_ok.mp isStart
  obtain ⟨rfl, _⟩ := checkedAdd_eq_ok.mp isLen
  exact ⟨rfl, by omega⟩

def packed (filterIds : List UInt32) : Bytes := encodePacked (filterIds.map (·.toNat))

variable {filterIds : List UInt32}

theorem packedFilterIdsPayloadLen_eq_ok {len} (predicted : packedFilterIdsPayloadLen filterIds = .ok len) :
    len = (packed filterIds).length := by
  have started : ∀ (filterIds : List UInt32) start len, filterIds.foldlM (fun len filterId =>
      checkedAdd "packed filter IDs size overflow" len (encodedLenVarint filterId.toNat)) start = .ok len →
      len = start + (packed filterIds).length := by
    intro filterIds
    induction filterIds with
    | nil =>
      intro start len folded
      cases folded
      rfl
    | cons filterId rest ih =>
      intro start len folded
      obtain ⟨_, one, others⟩ := bind_eq_ok.mp (List.foldlM_cons.symm.trans folded)
      obtain ⟨rfl, _⟩ := checkedAdd_eq_ok.mp one
      rw [ih _ _ others]
      simp only [packed, encodePacked, List.map_cons, List.flatMap_cons, List.length_append, length_encodeVarint]
      omega
  rw [started filterIds 0 len predicted, Nat.zero_add]

theorem length_packed_eq_zero : (packed filterIds).length = 0 ↔ filterIds = [] := by
  cases filterIds with
  | nil => simp [packed, encodePacked]
  | cons filterId =>
    have positive := encodedLenVarint_pos filterId.toNat
    simp only [packed, encodePacked, List.map_cons, List.flatMap_cons, List.length_append, length_encodeVarint,
      reduceCtorEq, iff_false]
    omega

/-- The field of the filter ids; there is none without ids. -/
def idsField (filterIds : List UInt32) : Bytes :=
  if filterIds = [] then [] else encodeField filterIdsTag (packed filterIds)

theorem encodedFilterIdsLen_eq_ok {len} (predicted : encodedFilterIdsLen filterIds = .ok len) :
    len = (idsField filterIds).length ∧ (packed filterIds).length < 2 ^ 64 := by
  obtain ⟨_, isPayload, isLen⟩ := bind_eq_ok.mp predicted
  obtain rfl := packedFilterIdsPayloadLen_eq_ok isPayload
  by_cases none : filterIds = []
  · subst none
    cases isLen
    exact ⟨rfl, by decide⟩
  · rw [filterIdsFieldLen, if_neg (fun zero => none (length_packed_eq_zero.mp zero))] at isLen
    obtain ⟨rfl, small⟩ := encodedLengthDelimitedFieldLen_eq_ok isLen
    rw [idsField, if_neg none, length_encodeField]
    exact ⟨rfl, small⟩

theorem encodeFilterIds_eq (filterIds : List UInt32) (output : Bytes) :
    encodeFilterIds filterIds (packed filterIds).length output = output ++ idsField filterIds := by
  have loop : ∀ (filterIds : List UInt32) (output : Bytes),
      filterIds.foldl (fun output filterId => output ++ encodeVarint filterId.toNat) output =
        output ++ packed filterIds := by
    intro filterIds
    induction filterIds with
    | nil => simp [packed, encodePacked]
    | cons filterId rest ih =>
      intro output
      rw [List.foldl_cons, ih]
      simp [packed, encodePacked]
  rw [encodeFilterIds, idsField]
  by_cases none : filterIds = []
  · simp [none, packed, encodePacked]
  · rw [if_neg (fun zero => none (length_packed_eq_zero.mp zero)), if_neg none, loop, encodeField]
    simp only [List.append_assoc]

namespace BodyItem

/-- What stands in the field of a row: the ids, then the message. -/
def payload (item : BodyItem) : Bytes := idsField item.filterIds ++ item.message

def field (item : BodyItem) : Bytes := encodeField item.fragmentId.toNat item.payload

variable {item : BodyItem}

/-- When the size of a row was computed without an overflow, the row is written, with that size. -/
theorem encode_eq {len} (predicted : item.encodedLen = .ok len) :
    len = item.field.length ∧ item.payload.length < 2 ^ 64 ∧ (packed item.filterIds).length < 2 ^ 64 ∧
      ∀ output, encodeBodyItem item.fragmentId item.filterIds item.message output = .ok (output ++ item.field) := by
  obtain ⟨_, isIdsLen, rest⟩ := bind_eq_ok.mp predicted
  obtain ⟨payloadLen, isPayloadLen, isLen⟩ := bind_eq_ok.mp rest
  have idsLen := isIdsLen
  obtain ⟨rfl, smallIds⟩ := encodedFilterIdsLen_eq_ok isIdsLen
  obtain ⟨isSum, _⟩ := checkedAdd_eq_ok.mp isPayloadLen
  have payloadLength : payloadLen = item.payload.length := by rw [isSum, payload, List.length_append]
  obtain ⟨rfl, _⟩ := encodedLengthDelimitedFieldLen_eq_ok isLen
  refine ⟨by rw [field, length_encodeField, payloadLength], by rwa [payload, List.length_append], smallIds,
    fun output => ?_⟩
  obtain ⟨packedLen, isPacked, isField⟩ := bind_eq_ok.mp idsLen
  refine bind_eq_ok.mpr ⟨packedLen, isPacked, bind_eq_ok.mpr ⟨_, isField, bind_eq_ok.mpr ⟨_, isPayloadLen, ?_⟩⟩⟩
  obtain rfl := packedFilterIdsPayloadLen_eq_ok isPacked
  simp only [encodeFilterIds_eq, field, encodeField, payloadLength, payload, List.append_assoc]
  rfl

theorem parse_payload (smallIds : (packed item.filterIds).length < 2 ^ 64) :
    parse item.payload = (parse item.message).map fun fields =>
      (if item.filterIds = [] then [] else [⟨filterIdsTag, .lengthDelimited (packed item.filterIds)⟩]) ++ fields := by
  rw [payload, idsField]
  by_cases none : item.filterIds = []
  · simp [none]
  · rw [if_neg none, if_neg none, parse_encodeField (by decide) (by decide) smallIds]
    rfl

theorem parse_field (numbered : item.fragmentId ≠ 0) (small : item.payload.length < 2 ^ 64) (rest : Bytes) :
    parse (item.field ++ rest) =
      (parse rest).map (⟨item.fragmentId.toNat, .lengthDelimited item.payload⟩ :: ·) := by
  have positive : item.fragmentId.toNat ≠ 0 := fun zero => numbered (UInt8.toNat_inj.mp zero)
  have bounded := item.fragmentId.toNat_lt
  exact parse_encodeField (by omega) (by omega) small rest

/-- The field is what was sent for the item: its message is the one of the row, with
    the ids as the repeated field 1. -/
def SentIn (item : BodyItem) (field : Field) : Prop :=
  field.tag = item.fragmentId.toNat ∧ ∃ payload, field.value = .lengthDelimited payload ∧
    ∀ message, parse item.message = some message → (∀ field ∈ message, field.tag ≠ filterIdsTag) →
      ∃ fields, parse payload = some fields ∧ fields.filter (·.tag ≠ filterIdsTag) = message ∧
        repeatedUint32 filterIdsTag fields = some (item.filterIds.map (·.toNat)) ∧
        ((∃ field ∈ fields, field.tag = filterIdsTag) ↔ item.filterIds ≠ [])

theorem sentIn (smallIds : (packed item.filterIds).length < 2 ^ 64) :
    item.SentIn ⟨item.fragmentId.toNat, .lengthDelimited item.payload⟩ := by
  refine ⟨rfl, item.payload, rfl, fun message isMessage without => ⟨_, by rw [parse_payload smallIds, isMessage]; rfl, ?_⟩⟩
  have others : message.filter (·.tag ≠ filterIdsTag) = message :=
    List.filter_eq_self.mpr fun field member => by simpa using without field member
  have noIds : message.filter (·.tag == filterIdsTag) = [] :=
    List.filter_eq_nil_iff.mpr fun field member => by simpa using without field member
  have noField : ¬∃ field ∈ message, field.tag = filterIdsTag := fun ⟨field, member, same⟩ => without field member same
  by_cases none : item.filterIds = []
  · simp only [none, if_true, List.nil_append]
    exact ⟨others, by simp [repeatedUint32, noIds], by simpa using noField⟩
  · rw [if_neg none]
    refine ⟨by simpa using others, ?_, by simp [none]⟩
    have numbers : Value.numbers (.lengthDelimited (packed item.filterIds)) = some (item.filterIds.map (·.toNat)) := by
      refine readAll_encodePacked fun value member => ?_
      obtain ⟨filterId, _, rfl⟩ := List.mem_map.mp member
      have bounded := filterId.toNat_lt
      omega
    simp only [repeatedUint32, List.filter_append, noIds]
    simp [numbers]

end BodyItem

def headerField (header : Option Bytes) : Bytes :=
  match header with
  | some data => encodeField headerFragmentId.toNat data
  | none => []

/-- The sizes of the fields, each computed on its own. -/
def predictedLens (header : Option Bytes) (items : List BodyItem) : Outcome DataStreamError (Nat × List Nat) := do
  let start ← headerLen header
  let lens ← items.mapM (·.encodedLen)
  return (start, lens)

variable {header : Option Bytes}

theorem headerLen_eq_ok {len} (predicted : headerLen header = .ok len) :
    len = (headerField header).length ∧ ∀ data, header = some data → data.length < 2 ^ 64 := by
  cases header with
  | none =>
    cases predicted
    exact ⟨rfl, by simp⟩
  | some =>
    obtain ⟨rfl, small⟩ := encodedLengthDelimitedFieldLen_eq_ok predicted
    refine ⟨(length_encodeField ..).symm, fun other same => ?_⟩
    cases same
    exact small

variable {items : List BodyItem} {lens : List Nat}

theorem foldlM_encodeBodyItem (predicted : List.Forall₂ (fun item len => item.encodedLen = .ok len) items lens)
    (output : Bytes) :
    items.foldlM (fun output item => encodeBodyItem item.fragmentId item.filterIds item.message output) output =
      .ok (output ++ items.flatMap BodyItem.field) ∧ (items.flatMap BodyItem.field).length = lens.sum := by
  induction predicted generalizing output with
  | nil => exact ⟨congrArg Except.ok (List.append_nil output).symm, rfl⟩
  | cons isLen _ ih =>
    obtain ⟨rfl, _, _, written⟩ := BodyItem.encode_eq isLen
    obtain ⟨rest, length⟩ := ih (output ++ BodyItem.field _)
    refine ⟨?_, by simp [length]⟩
    rw [List.foldlM_cons, written, List.flatMap_cons, ← List.append_assoc]
    exact rest

theorem encodeBuffer_eq (smallHeader : ∀ data, header = some data → data.length < 2 ^ 64)
    (predicted : List.Forall₂ (fun item len => item.encodedLen = .ok len) items lens) :
    encodeBuffer header items = .ok (headerField header ++ items.flatMap BodyItem.field) := by
  rw [← (foldlM_encodeBodyItem predicted (headerField header)).1]
  cases header with
  | none => rfl
  | some data =>
    simp only [encodeBuffer, encodeHeader, headerField, encodeField, List.nil_append,
      Nat.mod_eq_of_lt (smallHeader data rfl)]

theorem parse_flatMap_field (numbered : ∀ item ∈ items, item.fragmentId ≠ 0)
    (predicted : List.Forall₂ (fun item len => item.encodedLen = .ok len) items lens) :
    ∃ fields, parse (items.flatMap BodyItem.field) = some fields ∧ List.Forall₂ BodyItem.SentIn items fields := by
  induction predicted with
  | nil => exact ⟨[], rfl, .nil⟩
  | cons isLen _ ih =>
    obtain ⟨_, small, smallIds, _⟩ := BodyItem.encode_eq isLen
    obtain ⟨first, others⟩ := List.forall_mem_cons.mp numbered
    obtain ⟨_, parsed, sent⟩ := ih others
    refine ⟨_, ?_, .cons (BodyItem.sentIn smallIds) sent⟩
    rw [List.flatMap_cons, BodyItem.parse_field first small, parsed]
    rfl

theorem foldlM_encodedSize {start size}
    (predicted : List.Forall₂ (fun item len => item.encodedLen = .ok len) items lens)
    (summed : items.foldlM (fun size item => do
      let len ← BodyItem.encodedLen item
      checkedAdd "filtered block encoded size overflow" size len) start = .ok size) : size = start + lens.sum := by
  induction predicted generalizing start with
  | nil =>
    cases summed
    rfl
  | cons isLen _ ih =>
    obtain ⟨_, one, others⟩ := bind_eq_ok.mp (List.foldlM_cons.symm.trans summed)
    rw [isLen] at one
    obtain ⟨rfl, _⟩ := checkedAdd_eq_ok.mp one
    rw [ih others, List.sum_cons, Nat.add_assoc]

/-- Whenever no size overflows, the buffer has the predicted length and reads as
    a message with the header and one field for each row. -/
theorem encodeBuffer_parses {header : Option Bytes} {items : List BodyItem} {headerSize : Nat} {lens : List Nat}
    (numbered : ∀ item ∈ items, item.fragmentId ≠ 0)
    (predicted : predictedLens header items = .ok (headerSize, lens)) :
    ∃ buffer fields, encodeBuffer header items = .ok buffer ∧ buffer.length = headerSize + lens.sum ∧
      (∀ size, encodedSize header items = .ok size → buffer.length = size) ∧
      parse buffer = some ((header.toList.map fun data => ⟨headerFragmentId.toNat, .lengthDelimited data⟩) ++ fields) ∧
      List.Forall₂ BodyItem.SentIn items fields := by
  obtain ⟨start, isStart, rest⟩ := bind_eq_ok.mp predicted
  obtain ⟨found, isFound, result⟩ := bind_eq_ok.mp rest
  cases result
  have each := forall₂_of_mapM isFound
  obtain ⟨rfl, smallHeader⟩ := headerLen_eq_ok isStart
  have length := (foldlM_encodeBodyItem each []).2
  obtain ⟨fields, parsed, sent⟩ := parse_flatMap_field numbered each
  refine ⟨headerField header ++ items.flatMap BodyItem.field, fields,
    encodeBuffer_eq smallHeader each, by rw [List.length_append, length], ?_, ?_, sent⟩
  · intro size summed
    obtain ⟨other, isOther, folded⟩ := bind_eq_ok.mp summed
    cases isStart.symm.trans isOther
    rw [foldlM_encodedSize each folded, List.length_append, length]
  · cases header with
    | none => simpa [headerField] using parsed
    | some data =>
      rw [headerField, parse_encodeField (by decide) (by decide) (smallHeader data rfl), parsed]
      rfl

/-- A header and two rows, one of them without ids. -/
theorem twoRows_parse : ∃ buffer fields,
    encodeBuffer (some [8, 42]) [⟨2, [1, 128], [18, 0]⟩, ⟨255, [], [26, 0]⟩] = .ok buffer ∧ buffer.length = 18 ∧
      parse buffer = some (⟨1, .lengthDelimited [8, 42]⟩ :: fields) ∧
      List.Forall₂ BodyItem.SentIn [⟨2, [1, 128], [18, 0]⟩, ⟨255, [], [26, 0]⟩] fields := by
  have predicted : predictedLens (some [8, 42]) [⟨2, [1, 128], [18, 0]⟩, ⟨255, [], [26, 0]⟩] = .ok (4, [9, 5]) := by
    decide
  obtain ⟨buffer, fields, written, length, _, parsed, sent⟩ := encodeBuffer_parses (by decide) predicted
  exact ⟨buffer, fields, written, length, parsed, sent⟩

end Starkstream.Fragments
