import Starkstream.DataStream.FilterFragment

/-! # Building segments

The builder of a segment takes blocks apart: it keeps a list for the headers,
one for the indexes, one for the joins and one for each body fragment, and
counts.  Readers address these lists by the offset of the block.
-/

namespace Starkstream

open Fragments

structure CompactionError where
  deriving DecidableEq

/-- The bodies are in a hash map in the source; the order in which its lists are
    written to the storage plays no role. -/
structure SegmentBuilder where
  expectedFragmentCount : Option Nat := none
  firstBlock : Option Cursor := none
  headers : List (FragmentData HeaderFragment) := []
  indexes : List (FragmentData IndexGroupFragment) := []
  joins : List (FragmentData JoinGroupFragment) := []
  body : Std.ExtTreeMap FragmentId (String × List (FragmentData BodyFragment)) := ∅

namespace SegmentBuilder

def startNewSegment (builder : SegmentBuilder) (firstBlock : Cursor) : Outcome CompactionError SegmentBuilder :=
  if builder.firstBlock.isSome then Outcome.fail ⟨⟩ ["segment builder already started a segment"]
  else .ok { builder with firstBlock := some firstBlock }

def blockCount (builder : SegmentBuilder) : Nat := builder.headers.length

/-- The number of fragments that all blocks have to have. -/
def checkFragmentCount (builder : SegmentBuilder) (count : Nat) : Outcome CompactionError Nat :=
  match builder.expectedFragmentCount with
  | some expectedCount =>
    if count ≠ expectedCount then
      Outcome.fail ⟨⟩ ["block does not have the expected number of fragments",
        "this is a bug in the network-specific ingestion code", "expected: " ++ toString expectedCount,
        "actual: " ++ toString count]
    else .ok expectedCount
  | none => .ok count

/-- Add a body fragment to the list of its id; the name is the one the id was first seen with. -/
def addFragment (cursor : Cursor) (body : Std.ExtTreeMap FragmentId (String × List (FragmentData BodyFragment)))
    (fragment : BodyFragment) : Std.ExtTreeMap FragmentId (String × List (FragmentData BodyFragment)) :=
  match body[fragment.fragmentId]? with
  | some (name, existing) => body.insert fragment.fragmentId (name, existing ++ [⟨cursor, fragment⟩])
  | none => body.insert fragment.fragmentId (fragment.name, [⟨cursor, fragment⟩])

def addBlock (builder : SegmentBuilder) (cursor : Cursor) (block : Block) : Outcome CompactionError SegmentBuilder := do
  let count ← builder.checkFragmentCount block.body.length
  return {
    expectedFragmentCount := some count
    firstBlock := builder.firstBlock
    headers := builder.headers ++ [⟨cursor, block.header⟩]
    indexes := builder.indexes ++ [⟨cursor, block.index⟩]
    joins := builder.joins ++ [⟨cursor, block.join⟩]
    body := block.body.foldl (addFragment cursor) builder.body }

def bodySegment (firstBlock : Cursor) (expectedFragmentCount : Nat)
    (entry : String × List (FragmentData BodyFragment)) : Outcome CompactionError SerializedSegment :=
  if entry.2.length ≠ expectedFragmentCount then
    Outcome.fail ⟨⟩ ["body fragments do not match", "expected: " ++ toString expectedFragmentCount,
      "actual: " ++ toString entry.2.length]
  else .ok ⟨entry.1, .body ⟨firstBlock, entry.2⟩⟩

/-- The objects of the segment, and the builder for the next one. -/
def segmentData (builder : SegmentBuilder) : Outcome CompactionError (List SerializedSegment × SegmentBuilder) :=
  match builder.firstBlock with
  | none => Outcome.fail ⟨⟩ ["no segment started"]
  | some firstBlock =>
    if builder.indexes.length ≠ builder.headers.length then
      Outcome.fail ⟨⟩ ["index, header, and body fragments do not match",
        "indexes len: " ++ toString builder.indexes.length, "headers len: " ++ toString builder.headers.length]
    else if builder.joins.length ≠ builder.headers.length then
      Outcome.fail ⟨⟩ ["join, header, and body fragments do not match",
        "joins len: " ++ toString builder.joins.length, "headers len: " ++ toString builder.headers.length]
    else do
      let bodies ← (builder.body.toList.map Prod.snd).mapM (bodySegment firstBlock builder.headers.length)
      return ([⟨indexFragmentName, .index ⟨firstBlock, builder.indexes⟩⟩,
          ⟨joinFragmentName, .join ⟨firstBlock, builder.joins⟩⟩,
          ⟨headerFragmentName, .header ⟨firstBlock, builder.headers⟩⟩] ++ bodies,
        { expectedFragmentCount := builder.expectedFragmentCount })

/-- Start a segment, add the blocks in order and take the data. -/
def build (builder : SegmentBuilder) (firstBlock : Cursor) (blocks : List (Cursor × Block)) :
    Outcome CompactionError (List SerializedSegment × SegmentBuilder) := do
  let builder ← builder.startNewSegment firstBlock
  let builder ← blocks.foldlM (fun builder entry => builder.addBlock entry.1 entry.2) builder
  builder.segmentData

end SegmentBuilder

/-- The body fragments of a block have different ids, and they are among those
    that the chain provides, with their names. -/
structure Block.NamedBy (block : Block) (fragmentInfo : List FragmentInfo) : Prop where
  distinct : (block.body.map (·.fragmentId)).Nodup
  provided : ∀ fragment ∈ block.body, ⟨fragment.fragmentId, fragment.name⟩ ∈ fragmentInfo

/-- The objects of a segment by fragment, under the names of the fragments. -/
def Fragments.SegmentAccess.ofSegments (unchecked : UncheckedReads) (names : FragmentNames) (firstBlock : Nat)
    (segments : List SerializedSegment) : Fragments.SegmentAccess where
  firstBlock := firstBlock
  fragments fragmentId := names[fragmentId]?.bind fun name => (segments.find? (·.name == name)).map (·.data)
  unchecked := unchecked

/-- When every part has at most one element and there are as many as parts, the
    elements are those of the parts, in order. -/
theorem getElem?_flatMap_of_length {α β : Type} {part : α → List β} {items : List α}
    (small : ∀ item ∈ items, (part item).length ≤ 1) (len : (items.flatMap part).length = items.length) (i : Nat) :
    (items.flatMap part)[i]? = items[i]?.bind fun item => (part item).head? := by
  have bounded : ∀ rest : List α, (∀ item ∈ rest, (part item).length ≤ 1) →
      (rest.flatMap part).length ≤ rest.length := by
    intro rest small
    induction rest with
    | nil => exact Nat.le_refl _
    | cons item rest ih =>
      have one := small item (List.mem_cons_self ..)
      have others := ih fun other member => small other (List.mem_cons_of_mem _ member)
      rw [List.flatMap_cons, List.length_append, List.length_cons]
      omega
  induction items generalizing i with
  | nil => rfl
  | cons item rest ih =>
    have one := small item (List.mem_cons_self ..)
    have smallRest : ∀ other ∈ rest, (part other).length ≤ 1 :=
      fun other member => small other (List.mem_cons_of_mem _ member)
    have others := bounded rest smallRest
    rw [List.flatMap_cons, List.length_append, List.length_cons] at len
    obtain ⟨_, single⟩ := List.length_eq_one_iff.mp (show (part item).length = 1 by omega)
    rw [List.flatMap_cons, single]
    cases i with
    | zero => simp [single]
    | succ i => simpa using ih smallRest (by omega) i

namespace SegmentBuilder

/-- The fragments with one id, of a list of body fragments with the cursors of their blocks. -/
def entriesOf (fragmentId : FragmentId) (items : List (Cursor × BodyFragment)) : List (FragmentData BodyFragment) :=
  (items.filter fun item => item.2.fragmentId == fragmentId).map fun item => ⟨item.1, item.2⟩

/-- The lists of the builder are the fragments added so far, by id. -/
def Grouped (body : Std.ExtTreeMap FragmentId (String × List (FragmentData BodyFragment)))
    (items : List (Cursor × BodyFragment)) : Prop :=
  ∀ fragmentId, match body[fragmentId]? with
    | none => entriesOf fragmentId items = []
    | some (name, entries) => entries = entriesOf fragmentId items ∧
        ∃ item ∈ items, item.2.fragmentId = fragmentId ∧ item.2.name = name

theorem Grouped.empty : Grouped ∅ [] := fun fragmentId => by simp [entriesOf]

variable {body : Std.ExtTreeMap FragmentId (String × List (FragmentData BodyFragment))}

theorem Grouped.push {items} (grouped : Grouped body items) (cursor : Cursor) (fragment : BodyFragment) :
    Grouped (addFragment cursor body fragment) (items ++ [(cursor, fragment)]) := by
  have entries_concat : ∀ fragmentId, entriesOf fragmentId (items ++ [(cursor, fragment)]) =
      entriesOf fragmentId items ++ if fragment.fragmentId = fragmentId then [⟨cursor, fragment⟩] else [] := by
    intro fragmentId
    by_cases same : fragment.fragmentId = fragmentId <;> simp [entriesOf, List.filter_append, same]
  intro fragmentId
  have before := grouped fragmentId
  rw [entries_concat]
  by_cases same : fragment.fragmentId = fragmentId
  · subst same
    rw [if_pos rfl]
    cases found : body[fragment.fragmentId]? with
    | none =>
      rw [found] at before
      simp only [addFragment, found, Std.ExtTreeMap.getElem?_insert_self]
      exact ⟨by rw [before]; rfl, (cursor, fragment), by simp, rfl, rfl⟩
    | some entry =>
      obtain ⟨_, _⟩ := entry
      rw [found] at before
      obtain ⟨rfl, item, member, sameId, sameName⟩ := before
      simp only [addFragment, found, Std.ExtTreeMap.getElem?_insert_self]
      exact ⟨trivial, item, List.mem_append_left _ member, sameId, sameName⟩
  · have unchanged : (addFragment cursor body fragment)[fragmentId]? = body[fragmentId]? := by
      rw [addFragment]
      split <;> simp [Std.ExtTreeMap.getElem?_insert, same]
    rw [unchanged, if_neg same, List.append_nil]
    cases found : body[fragmentId]? with
    | none =>
      rw [found] at before
      exact before
    | some =>
      rw [found] at before
      obtain ⟨isEntries, item, member, sameId, sameName⟩ := before
      exact ⟨isEntries, item, List.mem_append_left _ member, sameId, sameName⟩

theorem Grouped.foldl {items} (grouped : Grouped body items) (cursor : Cursor) (fragments : List BodyFragment) :
    Grouped (fragments.foldl (addFragment cursor) body) (items ++ fragments.map (cursor, ·)) := by
  induction fragments generalizing body items with
  | nil => simpa using grouped
  | cons fragment rest ih => simpa using ih (grouped.push cursor fragment)

def itemsOf (blocks : List (Cursor × Block)) : List (Cursor × BodyFragment) :=
  blocks.flatMap fun entry => entry.2.body.map (entry.1, ·)

/-- What the builder holds after it was started and the blocks were added. -/
structure Holds (builder : SegmentBuilder) (firstBlock : Cursor) (blocks : List (Cursor × Block)) : Prop where
  started : builder.firstBlock = some firstBlock
  headers : builder.headers = blocks.map fun entry => ⟨entry.1, entry.2.header⟩
  indexes : builder.indexes = blocks.map fun entry => ⟨entry.1, entry.2.index⟩
  joins : builder.joins = blocks.map fun entry => ⟨entry.1, entry.2.join⟩
  body : Grouped builder.body (itemsOf blocks)

variable {firstBlock : Cursor} {blocks : List (Cursor × Block)}

theorem Holds.addBlock {builder after} (holds : Holds builder firstBlock blocks) {entry : Cursor × Block}
    (added : builder.addBlock entry.1 entry.2 = .ok after) : Holds after firstBlock (blocks ++ [entry]) := by
  obtain ⟨_, _, result⟩ := bind_eq_ok.mp added
  cases result
  refine ⟨holds.started, ?_, ?_, ?_, ?_⟩
  · simp [holds.headers]
  · simp [holds.indexes]
  · simp [holds.joins]
  · simpa [itemsOf] using holds.body.foldl entry.1 entry.2.body

theorem holds_of_foldlM {builder after seen} (holds : Holds builder firstBlock seen)
    (added : blocks.foldlM (fun builder entry => builder.addBlock entry.1 entry.2) builder = .ok after) :
    Holds after firstBlock (seen ++ blocks) := by
  induction blocks generalizing builder seen with
  | nil =>
    cases added
    simpa using holds
  | cons entry rest ih =>
    obtain ⟨_, one, others⟩ := bind_eq_ok.mp (List.foldlM_cons.symm.trans added)
    simpa using ih (holds.addBlock one) others

theorem mapM_bodySegment {count} {entries : List (String × List (FragmentData BodyFragment))} {bodies} :
    entries.mapM (bodySegment firstBlock count) = .ok bodies ↔ (∀ entry ∈ entries, entry.2.length = count) ∧
      bodies = entries.map fun entry => ⟨entry.1, .body ⟨firstBlock, entry.2⟩⟩ := by
  induction entries generalizing bodies with
  | nil => simp [pure, Except.pure, eq_comm]
  | cons entry rest ih =>
    rw [List.mapM_cons, List.forall_mem_cons]
    constructor
    · intro mapped
      obtain ⟨_, one, more⟩ := bind_eq_ok.mp mapped
      obtain ⟨_, later, result⟩ := bind_eq_ok.mp more
      cases result
      obtain ⟨lengths, rfl⟩ := ih.mp later
      rw [bodySegment] at one
      split at one
      next => cases one
      next same =>
          cases one
          exact ⟨⟨not_not.mp same, lengths⟩, rfl⟩
    · rintro ⟨⟨length, lengths⟩, rfl⟩
      exact bind_eq_ok.mpr ⟨_, if_neg (not_not.mpr length), bind_eq_ok.mpr ⟨_, ih.mpr ⟨lengths, rfl⟩, rfl⟩⟩

/-- What a builder that was between two segments has made of the blocks of the next. -/
structure Produced (segments : List SerializedSegment) (firstBlock : Cursor) (blocks : List (Cursor × Block))
    (body : Std.ExtTreeMap FragmentId (String × List (FragmentData BodyFragment))) : Prop where
  grouped : Grouped body (itemsOf blocks)
  lengths : ∀ (fragmentId : FragmentId) entry, body[fragmentId]? = some entry → entry.2.length = blocks.length
  segments_eq : segments =
    [⟨indexFragmentName, .index ⟨firstBlock, blocks.map fun entry => ⟨entry.1, entry.2.index⟩⟩⟩,
      ⟨joinFragmentName, .join ⟨firstBlock, blocks.map fun entry => ⟨entry.1, entry.2.join⟩⟩⟩,
      ⟨headerFragmentName, .header ⟨firstBlock, blocks.map fun entry => ⟨entry.1, entry.2.header⟩⟩⟩] ++
      (body.toList.map Prod.snd).map fun entry => ⟨entry.1, .body ⟨firstBlock, entry.2⟩⟩

theorem produced_of_build {count segments rest}
    (built : build { expectedFragmentCount := count } firstBlock blocks = .ok (segments, rest)) :
    ∃ body, Produced segments firstBlock blocks body := by
  obtain ⟨started, isStarted, more⟩ := bind_eq_ok.mp built
  cases isStarted
  obtain ⟨builder, added, taken⟩ := bind_eq_ok.mp more
  have holds : Holds builder firstBlock ([] ++ blocks) :=
    holds_of_foldlM ⟨rfl, rfl, rfl, rfl, Grouped.empty⟩ added
  rw [List.nil_append] at holds
  simp only [segmentData, holds.started] at taken
  split at taken
  next => cases taken
  next =>
      split at taken
      next => cases taken
      next =>
          obtain ⟨_, mapped, result⟩ := bind_eq_ok.mp taken
          obtain ⟨lengths, rfl⟩ := mapM_bodySegment.mp mapped
          obtain ⟨rfl, -⟩ := Prod.mk.inj (Except.ok.inj result)
          refine ⟨builder.body, holds.body, fun fragmentId entry found => ?_, ?_⟩
          · have listed := Std.ExtTreeMap.mem_toList_iff_getElem?_eq_some.mpr found
            rw [lengths entry (List.mem_map.mpr ⟨_, listed, rfl⟩), holds.headers, List.length_map]
          · rw [holds.indexes, holds.joins, holds.headers]

end SegmentBuilder

namespace FragmentNames

theorem insertInfo_eq_ok {names after : FragmentNames} {info} (inserted : names.insertInfo info = .ok after) :
    names[info.fragmentId]? = none ∧ after = names.insert info.fragmentId info.name := by
  rw [insertInfo] at inserted
  split at inserted
  next => cases inserted
  next free => exact ⟨free, (Except.ok.inj inserted).symm⟩

theorem foldlM_insertInfo {names after} {fragmentInfo : List FragmentInfo}
    (inserted : fragmentInfo.foldlM insertInfo names = .ok after) :
    (∀ (fragmentId : FragmentId) name, names[fragmentId]? = some name → after[fragmentId]? = some name) ∧
      ∀ info ∈ fragmentInfo, names[info.fragmentId]? = none ∧ after[info.fragmentId]? = some info.name := by
  induction fragmentInfo generalizing names with
  | nil =>
    cases inserted
    exact ⟨fun _ _ found => found, by simp⟩
  | cons info rest ih =>
    obtain ⟨next, one, others⟩ := bind_eq_ok.mp (List.foldlM_cons.symm.trans inserted)
    obtain ⟨free, rfl⟩ := insertInfo_eq_ok one
    obtain ⟨kept, later⟩ := ih others
    refine ⟨fun fragmentId name found => kept fragmentId name ?_, List.forall_mem_cons.mpr ⟨⟨free, ?_⟩, ?_⟩⟩
    · have other : info.fragmentId ≠ fragmentId := by
        rintro rfl
        rw [free] at found
        cases found
      simpa [Std.ExtTreeMap.getElem?_insert, other] using found
    · exact kept info.fragmentId info.name Std.ExtTreeMap.getElem?_insert_self
    · intro other member
      obtain ⟨freeNext, named⟩ := later other member
      rw [Std.ExtTreeMap.getElem?_insert] at freeNext
      split at freeNext
      next => cases freeNext
      next => exact ⟨freeNext, named⟩

theorem base_index : base[indexFragmentId]? = some indexFragmentName := by decide

theorem base_join : base[joinFragmentId]? = some joinFragmentName := by decide

theorem base_header : base[headerFragmentId]? = some headerFragmentName := by decide

theorem mem_reserved_of_base {fragmentId name} (found : base[fragmentId]? = some name) :
    fragmentId ∈ reservedFragmentIds := by
  simp only [base, Std.ExtTreeMap.getElem?_insert] at found
  split at found
  next same => simp [reservedFragmentIds, ← Std.LawfulEqOrd.eq_of_compare same]
  next =>
      split at found
      next same => simp [reservedFragmentIds, ← Std.LawfulEqOrd.eq_of_compare same]
      next =>
          split at found
          next same => simp [reservedFragmentIds, ← Std.LawfulEqOrd.eq_of_compare same]
          next => cases found

end FragmentNames

namespace SegmentBuilder

section Reading

variable {unchecked : UncheckedReads} {fragmentInfo : List FragmentInfo} {names : FragmentNames}
  {firstBlock : Cursor}
  {blocks : List (Cursor × Block)} {segments : List SerializedSegment}
  {body : Std.ExtTreeMap FragmentId (String × List (FragmentData BodyFragment))}

/-- The names of the fragments are those of the chain, and no two fragments share one. -/
structure Naming (fragmentInfo : List FragmentInfo) (names : FragmentNames) : Prop where
  provided : FragmentNames.ofFragmentInfo fragmentInfo = .ok names
  injective : ∀ (left right : FragmentId) name, names[left]? = some name → names[right]? = some name → left = right

variable {fragmentId : FragmentId}

theorem Naming.reserved (naming : Naming fragmentInfo names) {name}
    (found : FragmentNames.base[fragmentId]? = some name) : names[fragmentId]? = some name :=
  (FragmentNames.foldlM_insertInfo naming.provided).1 fragmentId name found

variable {entry : String × List (FragmentData BodyFragment)}

theorem Produced.name_eq (produced : Produced segments firstBlock blocks body) (naming : Naming fragmentInfo names)
    (named : ∀ entry ∈ blocks, entry.2.NamedBy fragmentInfo) (found : body[fragmentId]? = some entry) :
    names[fragmentId]? = some entry.1 := by
  have grouped := produced.grouped fragmentId
  rw [found] at grouped
  obtain ⟨_, _, member, rfl, sameName⟩ := grouped
  obtain ⟨block, inBlocks, inBody⟩ := List.mem_flatMap.mp member
  obtain ⟨fragment, isFragment, rfl⟩ := List.mem_map.mp inBody
  have provided := (named block inBlocks).provided fragment isFragment
  rw [((FragmentNames.foldlM_insertInfo naming.provided).2 _ provided).2]
  exact congrArg some sameName

theorem Naming.name_ne (naming : Naming fragmentInfo names) {name} (isNamed : names[fragmentId]? = some name)
    (free : fragmentId ∉ reservedFragmentIds) {reserved : FragmentId}
    (found : FragmentNames.base[reserved]? = some name) : False := by
  obtain rfl := naming.injective fragmentId reserved name isNamed (naming.reserved found)
  exact free (FragmentNames.mem_reserved_of_base found)

section
variable (produced : Produced segments firstBlock blocks body) (naming : Naming fragmentInfo names)
  (named : ∀ entry ∈ blocks, entry.2.NamedBy fragmentInfo) (free : fragmentId ∉ reservedFragmentIds)
include produced naming named free

theorem Produced.data_eq {segment : SerializedSegment} (member : segment ∈ segments)
    (isNamed : names[fragmentId]? = some segment.name) :
    ∃ entry, body[fragmentId]? = some entry ∧ segment.data = .body ⟨firstBlock, entry.2⟩ := by
  rw [produced.segments_eq] at member
  rcases List.mem_append.mp member with isReserved | isBody
  · simp only [List.mem_cons, List.not_mem_nil, or_false] at isReserved
    rcases isReserved with rfl | rfl | rfl
    · exact (naming.name_ne isNamed free FragmentNames.base_index).elim
    · exact (naming.name_ne isNamed free FragmentNames.base_join).elim
    · exact (naming.name_ne isNamed free FragmentNames.base_header).elim
  · obtain ⟨_, isEntry, rfl⟩ := List.mem_map.mp isBody
    obtain ⟨⟨other, _⟩, listed, rfl⟩ := List.mem_map.mp isEntry
    have found := Std.ExtTreeMap.mem_toList_iff_getElem?_eq_some.mp listed
    obtain rfl := naming.injective fragmentId other _ isNamed (produced.name_eq naming named found)
    exact ⟨_, found, rfl⟩

theorem Produced.find_body :
    (Fragments.SegmentAccess.ofSegments unchecked names firstBlock.number segments).fragments fragmentId =
      body[fragmentId]?.map fun entry => .body ⟨firstBlock, entry.2⟩ := by
  rw [Fragments.SegmentAccess.ofSegments]
  cases found : body[fragmentId]? with
  | none =>
    cases isNamed : names[fragmentId]? with
    | none => simp [isNamed]
    | some name =>
      have missing : segments.find? (·.name == name) = none := by
        refine List.find?_eq_none.mpr fun segment member same => ?_
        obtain rfl := eq_of_beq same
        obtain ⟨_, isFound, _⟩ := produced.data_eq naming named free member isNamed
        rw [found] at isFound
        cases isFound
      simp [isNamed, missing]
  | some entry =>
    have isNamed := produced.name_eq naming named found
    have stored : (⟨entry.1, .body ⟨firstBlock, entry.2⟩⟩ : SerializedSegment) ∈ segments := by
      rw [produced.segments_eq]
      have listed := Std.ExtTreeMap.mem_toList_iff_getElem?_eq_some.mpr found
      exact List.mem_append_right _ (List.mem_map.mpr ⟨entry, List.mem_map.mpr ⟨_, listed, rfl⟩, rfl⟩)
    cases search : segments.find? (·.name == entry.1) with
    | none => simpa using List.find?_eq_none.mp search _ stored
    | some segment =>
      have sameName : segment.name = entry.1 := by simpa using List.find?_some search
      obtain ⟨_, isFound, isBody⟩ :=
        produced.data_eq naming named free (List.mem_of_find?_eq_some search) (by rw [sameName, isNamed])
      cases found.symm.trans isFound
      simp [isNamed, search, isBody]

end

theorem entriesOf_itemsOf (fragmentId : FragmentId) (blocks : List (Cursor × Block)) :
    entriesOf fragmentId (itemsOf blocks) = blocks.flatMap fun entry =>
      (entry.2.body.filter (·.fragmentId == fragmentId)).map (⟨entry.1, ·⟩) := by
  simp only [entriesOf, itemsOf, List.filter_flatMap, List.map_flatMap, List.filter_map, List.map_map]
  rfl

theorem length_filter_le_one {fragments : List BodyFragment} (distinct : (fragments.map (·.fragmentId)).Nodup)
    (fragmentId : FragmentId) : (fragments.filter (·.fragmentId == fragmentId)).length ≤ 1 := by
  have once := List.nodup_iff_count_le_one.mp distinct fragmentId
  rwa [List.count, List.countP_map, List.countP_eq_length_filter] at once

/-- At the offset of a block the list of an id has the fragment of the block: no
    block has two, and there are as many as blocks. -/
theorem Produced.getElem?_entries (produced : Produced segments firstBlock blocks body)
    (named : ∀ entry ∈ blocks, entry.2.NamedBy fragmentInfo) (found : body[fragmentId]? = some entry) (offset : Nat) :
    entry.2[offset]? = blocks[offset]?.bind fun block =>
      (block.2.body.find? (·.fragmentId == fragmentId)).map (⟨block.1, ·⟩) := by
  have grouped := produced.grouped fragmentId
  rw [found] at grouped
  have length := produced.lengths fragmentId entry found
  rw [grouped.1, entriesOf_itemsOf] at length ⊢
  rw [getElem?_flatMap_of_length (fun block member => ?_) length]
  · simp only [List.head?_map, List.head?_filter]
  · rw [List.length_map]
    exact length_filter_le_one (named block member).distinct fragmentId

theorem Produced.find_eq_none (produced : Produced segments firstBlock blocks body) (missing : body[fragmentId]? = none)
    {block} (member : block ∈ blocks) : block.2.body.find? (·.fragmentId == fragmentId) = none := by
  have grouped := produced.grouped fragmentId
  rw [missing] at grouped
  simp only [entriesOf_itemsOf, List.flatMap_eq_nil_iff, List.map_eq_nil_iff] at grouped
  rw [← List.head?_filter, grouped block member]
  rfl

variable {offset : Nat} {cursor : Cursor} {block : Block}

section
variable (produced : Produced segments firstBlock blocks body) (naming : Naming fragmentInfo names)
include produced naming

theorem Produced.getBodyFragment_same (named : ∀ entry ∈ blocks, entry.2.NamedBy fragmentInfo)
    (isBlock : blocks[offset]? = some (cursor, block)) (free : fragmentId ∉ reservedFragmentIds) :
    Outcome.Same
      (SegmentBlockAccess.getBodyFragment ⟨.ofSegments unchecked names firstBlock.number segments, offset⟩ fragmentId)
      (BlockAccess.getBodyFragment ⟨block⟩ fragmentId) := by
  simp only [SegmentBlockAccess.getBodyFragment, produced.find_body naming named free]
  cases found : body[fragmentId]? with
  | none =>
    have missing := produced.find_eq_none found (List.mem_of_getElem? isBlock)
    simp only [Option.map_none, BlockAccess.getBodyFragment, missing]
    trivial
  | some entry =>
    have position := produced.getElem?_entries named found offset
    have inside : offset < entry.2.length := by
      rw [produced.lengths fragmentId entry found]
      exact (List.getElem?_eq_some_iff.mp isBlock).1
    rw [isBlock, Option.bind_some, List.getElem?_eq_getElem inside] at position
    obtain ⟨_, isFragment, same⟩ := Option.map_eq_some_iff.mp position.symm
    simp only [Option.map_some, UncheckedReads.bodyAt, atOffset, List.getElem?_eq_getElem inside,
      ← same, BlockAccess.getBodyFragment, isFragment]
    rfl

theorem Produced.find_index :
    (Fragments.SegmentAccess.ofSegments unchecked names firstBlock.number segments).fragments indexFragmentId =
      some (.index ⟨firstBlock, blocks.map fun entry => ⟨entry.1, entry.2.index⟩⟩) := by
  simp only [Fragments.SegmentAccess.ofSegments, naming.reserved FragmentNames.base_index, produced.segments_eq]
  rfl

theorem Produced.find_join :
    (Fragments.SegmentAccess.ofSegments unchecked names firstBlock.number segments).fragments joinFragmentId =
      some (.join ⟨firstBlock, blocks.map fun entry => ⟨entry.1, entry.2.join⟩⟩) := by
  simp only [Fragments.SegmentAccess.ofSegments, naming.reserved FragmentNames.base_join, produced.segments_eq]
  rfl

theorem Produced.find_header :
    (Fragments.SegmentAccess.ofSegments unchecked names firstBlock.number segments).fragments headerFragmentId =
      some (.header ⟨firstBlock, blocks.map fun entry => ⟨entry.1, entry.2.header⟩⟩) := by
  simp only [Fragments.SegmentAccess.ofSegments, naming.reserved FragmentNames.base_header, produced.segments_eq]
  rfl

end

theorem atOffset_map {α : Type} (part : Block → α) (isBlock : blocks[offset]? = some (cursor, block)) :
    atOffset ⟨firstBlock, blocks.map fun entry => ⟨entry.1, part entry.2⟩⟩ offset = .ok (part block) := by
  simp [atOffset, List.getElem?_map, isBlock]

/-- Reading a block of the segment is reading the block: the indexes and the joins
    of every fragment, the header and the bodies of all fragments but the reserved ones. -/
theorem segment_reads_block (unchecked : UncheckedReads) {count rest} (naming : Naming fragmentInfo names)
    (named : ∀ entry ∈ blocks, entry.2.NamedBy fragmentInfo)
    (built : build { expectedFragmentCount := count } firstBlock blocks = .ok (segments, rest))
    (isBlock : blocks[offset]? = some (cursor, block)) :
    FragmentAccess.Agree (.segment ⟨.ofSegments unchecked names firstBlock.number segments, offset⟩)
      (.block ⟨block⟩) := by
  obtain ⟨_, produced⟩ := produced_of_build built
  refine ⟨fun fragmentId => ?_, fun fragmentId => ?_, ?_, fun fragmentId free => ?_⟩
  · simp only [FragmentAccess.getIndexFragment, SegmentBlockAccess.getIndexFragment,
      produced.find_index naming, UncheckedReads.indexAt, atOffset_map (·.index) isBlock, BlockAccess.getIndexFragment]
    exact .refl _
  · simp only [FragmentAccess.getJoinFragment, SegmentBlockAccess.getJoinFragment,
      produced.find_join naming, UncheckedReads.joinAt, atOffset_map (·.join) isBlock, BlockAccess.getJoinFragment,
      bind, Except.bind]
    -- The two not-found errors have different texts.
    cases block.join.joins.find? (·.fragmentId == fragmentId) with
    | none => trivial
    | some => rfl
  · simp only [FragmentAccess.getHeaderFragment, SegmentBlockAccess.getHeaderFragment,
      produced.find_header naming, UncheckedReads.headerAt, atOffset_map (·.header) isBlock,
      BlockAccess.getHeaderFragment]
    exact .refl _
  · exact produced.getBodyFragment_same naming named isBlock free

/-- Compaction keeps the content of the blocks, for every way to read it and for the filters of clients. -/
theorem compaction_preserves_blocks (unchecked : UncheckedReads) {count : Option Nat} {rest : SegmentBuilder}
    (naming : Naming fragmentInfo names)
    (named : ∀ entry ∈ blocks, entry.2.NamedBy fragmentInfo)
    (built : build { expectedFragmentCount := count } firstBlock blocks = .ok (segments, rest))
    (isBlock : blocks[offset]? = some (cursor, block)) :
    let compacted : FragmentAccess := .segment ⟨.ofSegments unchecked names firstBlock.number segments, offset⟩
    compacted.Agree (.block ⟨block⟩) ∧
      ∀ (blockFilters : List Query.BlockFilter) (isLive : Bool),
        (∀ blockFilter ∈ blockFilters, ∀ fragmentId ∈ blockFilter.allFragmentIds, fragmentId ∉ reservedFragmentIds) →
        Outcome.Same (Fragments.filterFragment compacted names isLive blockFilters)
          (Fragments.filterFragment (.block ⟨block⟩) names isLive blockFilters) := by
  intro compacted
  have agree := segment_reads_block unchecked naming named built isBlock
  exact ⟨agree, fun blockFilters isLive unreserved => agree.filterFragment unreserved names isLive⟩

end Reading

end SegmentBuilder

/-! ## The objects of a segment -/

/-- The block has the body fragments of its chain. -/
def Block.Provides (fragmentInfo : List FragmentInfo) (block : Block) : Prop :=
  block.body.map (fun fragment => ⟨fragment.fragmentId, fragment.name⟩) = fragmentInfo

instance (fragmentInfo : List FragmentInfo) (block : Block) : Decidable (block.Provides fragmentInfo) :=
  inferInstanceAs (Decidable (_ = _))

/-- The names under which readers look for the objects of a segment. -/
def segmentNames (fragmentInfo : List FragmentInfo) : List String :=
  [indexFragmentName, joinFragmentName, headerFragmentName] ++ fragmentInfo.map (·.name)

theorem Block.Provides.length_filter {fragmentInfo} {block : Block} (provides : block.Provides fragmentInfo)
    (fragmentId : FragmentId) :
    (block.body.filter (·.fragmentId == fragmentId)).length =
      (fragmentInfo.filter (·.fragmentId == fragmentId)).length := by
  rw [← provides, List.filter_map, List.length_map]
  rfl

namespace SegmentBuilder

theorem length_entriesOf {fragmentInfo : List FragmentInfo} {blocks : List (Cursor × Block)}
    (provided : ∀ entry ∈ blocks, entry.2.Provides fragmentInfo) (fragmentId : FragmentId) :
    (entriesOf fragmentId (itemsOf blocks)).length =
      blocks.length * (fragmentInfo.filter (·.fragmentId == fragmentId)).length := by
  have each : blocks.map (fun block => ((block.2.body.filter (·.fragmentId == fragmentId)).map
      fun fragment => (⟨block.1, fragment⟩ : FragmentData BodyFragment)).length) =
        blocks.map fun _ => (fragmentInfo.filter (·.fragmentId == fragmentId)).length :=
    List.map_congr_left fun block member => by rw [List.length_map, (provided block member).length_filter]
  rw [entriesOf_itemsOf, List.length_flatMap, each, List.map_const', List.sum_replicate, smul_eq_mul]

/-! The builder takes the blocks of a chain. -/

theorem foldlM_addBlock {builder : SegmentBuilder} {count} {blocks : List (Cursor × Block)}
    (expected : ∀ other, builder.expectedFragmentCount = some other → other = count)
    (counted : ∀ entry ∈ blocks, entry.2.body.length = count) :
    ∃ after, blocks.foldlM (fun builder entry => builder.addBlock entry.1 entry.2) builder = .ok after := by
  induction blocks generalizing builder with
  | nil => exact ⟨builder, rfl⟩
  | cons entry rest ih =>
    obtain ⟨isCount, others⟩ := List.forall_mem_cons.mp counted
    have checked : builder.checkFragmentCount entry.2.body.length = .ok count := by
      rw [checkFragmentCount, isCount]
      cases isExpected : builder.expectedFragmentCount with
      | none => rfl
      | some other => simp [expected other isExpected]
    obtain ⟨next, one, nextCount⟩ : ∃ next, builder.addBlock entry.1 entry.2 = .ok next ∧
        next.expectedFragmentCount = some count := ⟨_, bind_eq_ok.mpr ⟨count, checked, rfl⟩, rfl⟩
    obtain ⟨after, later⟩ := ih (fun other same => Option.some.inj (same.symm.trans nextCount)) others
    exact ⟨after, List.foldlM_cons.trans (bind_eq_ok.mpr ⟨next, one, later⟩)⟩

theorem segmentData_of_provides {fragmentInfo : List FragmentInfo} (distinct : (fragmentInfo.map (·.fragmentId)).Nodup)
    {builder firstBlock blocks} (holds : Holds builder firstBlock blocks)
    (provided : ∀ entry ∈ blocks, entry.2.Provides fragmentInfo) :
    ∃ segments rest, builder.segmentData = .ok (segments, rest) := by
  have lengths : ∀ entry ∈ builder.body.toList.map Prod.snd, entry.2.length = builder.headers.length := by
    intro entry listed
    obtain ⟨⟨fragmentId, _⟩, stored, rfl⟩ := List.mem_map.mp listed
    have grouped := holds.body fragmentId
    rw [Std.ExtTreeMap.mem_toList_iff_getElem?_eq_some.mp stored] at grouped
    obtain ⟨isEntries, _, isItem, rfl, -⟩ := grouped
    obtain ⟨block, isBlock, inBlock⟩ := List.mem_flatMap.mp isItem
    obtain ⟨fragment, isFragment, rfl⟩ := List.mem_map.mp inBlock
    -- the id is once in the block, so that it is once in every block
    have provides := provided block isBlock
    have distinctBody : (block.2.body.map (·.fragmentId)).Nodup := by
      rw [← provides, List.map_map] at distinct
      exact distinct
    have upper := length_filter_le_one distinctBody fragment.fragmentId
    have lower : 0 < (block.2.body.filter (·.fragmentId == fragment.fragmentId)).length :=
      List.length_pos_of_mem (List.mem_filter.mpr ⟨isFragment, beq_self_eq_true _⟩)
    have once := provides.length_filter fragment.fragmentId
    rw [isEntries, length_entriesOf provided, holds.headers, List.length_map, ← once,
      le_antisymm upper lower, Nat.mul_one]
  have mapped : (builder.body.toList.map Prod.snd).mapM (bodySegment firstBlock builder.headers.length) = .ok _ :=
    mapM_bodySegment.mpr ⟨lengths, rfl⟩
  have indexes : builder.indexes.length = builder.headers.length := by simp [holds.indexes, holds.headers]
  have joins : builder.joins.length = builder.headers.length := by simp [holds.joins, holds.headers]
  simp only [segmentData, holds.started, indexes, joins, ne_eq, not_true, if_false, mapped, bind, Except.bind]
  exact ⟨_, _, rfl⟩

section Objects

variable {fragmentInfo : List FragmentInfo} {firstBlock : Cursor} {blocks : List (Cursor × Block)}
  {segments : List SerializedSegment} {body : Std.ExtTreeMap FragmentId (String × List (FragmentData BodyFragment))}

variable (produced : Produced segments firstBlock blocks body) (nonempty : blocks ≠ [])
include produced nonempty

/-- A list of body fragments is as long as the segment, so that its id is once in each block. -/
theorem Produced.once (provided : ∀ entry ∈ blocks, entry.2.Provides fragmentInfo) {fragmentId entry}
    (found : body[fragmentId]? = some entry) : (fragmentInfo.filter (·.fragmentId == fragmentId)).length = 1 := by
  have grouped := produced.grouped fragmentId
  rw [found] at grouped
  have length := produced.lengths fragmentId entry found
  rw [grouped.1, length_entriesOf provided] at length
  exact Nat.eq_of_mul_eq_mul_left (List.length_pos_iff.mpr nonempty) (length.trans (Nat.mul_one _).symm)

variable (provided : ∀ entry ∈ blocks, entry.2.Provides fragmentInfo)
include provided

/-- Every object of a segment has its blocks, in order. -/
theorem Produced.cursors {segment} (member : segment ∈ segments) : segment.data.cursors = blocks.map (·.1) := by
  rw [produced.segments_eq] at member
  rcases List.mem_append.mp member with fixed | listed
  · simp only [List.mem_cons, List.not_mem_nil, or_false] at fixed
    rcases fixed with rfl | rfl | rfl <;> simp [SegmentData.cursors]
  · obtain ⟨_, among, rfl⟩ := List.mem_map.mp listed
    obtain ⟨⟨fragmentId, _⟩, stored, rfl⟩ := List.mem_map.mp among
    have found := Std.ExtTreeMap.mem_toList_iff_getElem?_eq_some.mp stored
    have grouped := produced.grouped fragmentId
    rw [found] at grouped
    have once := produced.once nonempty provided found
    have each : ∀ block ∈ blocks, ((block.2.body.filter (·.fragmentId == fragmentId)).map
        fun fragment => (⟨block.1, fragment⟩ : FragmentData BodyFragment)).map (·.cursor) = [block.1] := by
      intro block isBlock
      rw [List.map_map]
      obtain ⟨_, single⟩ := List.length_eq_one_iff.mp (((provided block isBlock).length_filter fragmentId).trans once)
      rw [single]
      rfl
    simp only [SegmentData.cursors]
    rw [grouped.1, entriesOf_itemsOf, List.map_flatMap, List.flatMap_congr each]
    exact List.flatMap_pure_eq_map _ _

/-- A segment has an object for every name. -/
theorem Produced.named {name} (isName : name ∈ segmentNames fragmentInfo) :
    ∃ segment ∈ segments, segment.name = name := by
  rw [produced.segments_eq]
  rcases List.mem_append.mp isName with fixed | listed
  · simp only [List.mem_cons, List.not_mem_nil, or_false] at fixed
    rcases fixed with rfl | rfl | rfl <;> simp
  · obtain ⟨info, among, rfl⟩ := List.mem_map.mp listed
    have grouped := produced.grouped info.fragmentId
    cases found : body[info.fragmentId]? with
    | none =>
      obtain ⟨block, isBlock⟩ := List.exists_mem_of_ne_nil blocks nonempty
      have missing := produced.find_eq_none found isBlock
      rw [← provided block isBlock] at among
      obtain ⟨fragment, isFragment, rfl⟩ := List.mem_map.mp among
      simpa using List.find?_eq_none.mp missing fragment isFragment
    | some entry =>
      rw [found] at grouped
      obtain ⟨-, _, isItem, sameId, sameName⟩ := grouped
      -- the id is once among those of the chain, so that it has one name
      obtain ⟨only, single⟩ := List.length_eq_one_iff.mp (produced.once nonempty provided found)
      have unique : ∀ other ∈ fragmentInfo, other.fragmentId = info.fragmentId → other = only := by
        intro other isOther same
        have kept : other ∈ fragmentInfo.filter (·.fragmentId == info.fragmentId) :=
          List.mem_filter.mpr ⟨isOther, beq_iff_eq.mpr same⟩
        rw [single] at kept
        exact List.mem_singleton.mp kept
      obtain ⟨block, isBlock, inBlock⟩ := List.mem_flatMap.mp isItem
      obtain ⟨fragment, isFragment, rfl⟩ := List.mem_map.mp inBlock
      have provides : (⟨fragment.fragmentId, fragment.name⟩ : FragmentInfo) ∈ fragmentInfo := by
        rw [← provided block isBlock]
        exact List.mem_map.mpr ⟨fragment, isFragment, rfl⟩
      have same := (unique _ provides sameId).trans (unique info among rfl).symm
      refine ⟨⟨entry.1, .body ⟨firstBlock, entry.2⟩⟩, List.mem_append_right _ (List.mem_map.mpr ⟨entry, ?_, rfl⟩), ?_⟩
      · exact List.mem_map.mpr ⟨_, Std.ExtTreeMap.mem_toList_iff_getElem?_eq_some.mpr found, rfl⟩
      · rw [← sameName, ← same]

end Objects

end SegmentBuilder

namespace TwoBlockSegment

/-! A segment of two blocks with two kinds of data each. -/

def fragmentInfo : List FragmentInfo := [⟨2, "transaction"⟩, ⟨3, "event"⟩]

def names : FragmentNames := (FragmentNames.base.insert 2 "transaction").insert 3 "event"

/-- A block with a transaction and two events, of which one has the key. -/
def blockOf (byte : UInt8) (key : ScalarValue) : Block where
  header := ⟨[byte]⟩
  index := ⟨[⟨3, 0, 2, [⟨0, .bitmap (BitmapIndexBuilder.build (BitmapIndexBuilder.insert ∅ key 1))⟩]⟩]⟩
  join := ⟨[⟨3, [⟨2, .one (JoinToOneIndexBuilder.build (JoinToOneIndexBuilder.insert ∅ 1 0))⟩]⟩]⟩
  body := [⟨2, "transaction", [[byte, 2]]⟩, ⟨3, "event", [[byte, 3], [byte, 4]]⟩]

def first : Cursor := ⟨6, ⟨[6]⟩⟩

def second : Cursor := ⟨7, ⟨[7]⟩⟩

def blocks : List (Cursor × Block) := [(first, blockOf 6 (.uint8 0)), (second, blockOf 7 (.uint8 1))]

/-- The part of every block, for one object. -/
def partOf {α : Type} (part : Block → α) : Segment α := ⟨first, blocks.map fun entry => ⟨entry.1, part entry.2⟩⟩

def segments : List SerializedSegment :=
  [⟨indexFragmentName, .index (partOf (·.index))⟩,
    ⟨joinFragmentName, .join (partOf (·.join))⟩,
    ⟨headerFragmentName, .header (partOf (·.header))⟩,
    ⟨"transaction", .body ⟨first, [⟨first, ⟨2, "transaction", [[6, 2]]⟩⟩, ⟨second, ⟨2, "transaction", [[7, 2]]⟩⟩]⟩⟩,
    ⟨"event", .body ⟨first, [⟨first, ⟨3, "event", [[6, 3], [6, 4]]⟩⟩, ⟨second, ⟨3, "event", [[7, 3], [7, 4]]⟩⟩]⟩⟩]

theorem naming : SegmentBuilder.Naming fragmentInfo names where
  provided := rfl
  injective := by
    have listed : names.toList =
        [(0, "index"), (1, "header"), (2, "transaction"), (3, "event"), (255, "join")] := by decide
    intro left right name foundLeft foundRight
    rw [← Std.ExtTreeMap.mem_toList_iff_getElem?_eq_some, listed] at foundLeft foundRight
    simp only [List.mem_cons, Prod.mk.injEq, List.not_mem_nil, or_false] at foundLeft foundRight
    rcases foundLeft with ⟨rfl, rfl⟩ | ⟨rfl, rfl⟩ | ⟨rfl, rfl⟩ | ⟨rfl, rfl⟩ | ⟨rfl, rfl⟩ <;>
      exact (by simpa using foundRight : right = _).symm

theorem named : ∀ entry ∈ blocks, entry.2.NamedBy fragmentInfo := by
  have each : ∀ byte key, (blockOf byte key).NamedBy fragmentInfo := fun _ _ =>
    ⟨by simp [blockOf], by simp [blockOf, fragmentInfo]⟩
  simp [blocks, each]

theorem built : SegmentBuilder.build {} first blocks = .ok (segments, { expectedFragmentCount := some 2 }) := rfl

/-- The events with the key, with their transactions. -/
def blockFilter : Query.BlockFilter := Query.BlockFilter.addFilter {} ⟨1, 3, [⟨0, .uint8 1⟩], [2]⟩

/-- What is read of the second block, and what the filter finds in it. -/
theorem preserved : let compacted : FragmentAccess := .segment ⟨.ofSegments default names 6 segments, 1⟩
    compacted.Agree (.block ⟨blockOf 7 (.uint8 1)⟩) ∧
      compacted.getBodyFragment 3 = .ok ⟨3, "event", [[7, 3], [7, 4]]⟩ ∧
      Outcome.Same (Fragments.filterFragment compacted names false [blockFilter])
        (Fragments.filterFragment (.block ⟨blockOf 7 (.uint8 1)⟩) names false [blockFilter]) := by
  have isBlock : blocks[1]? = some (second, blockOf 7 (.uint8 1)) := rfl
  obtain ⟨agree, filtered⟩ := SegmentBuilder.compaction_preserves_blocks default naming named built isBlock
  have unreserved : ∀ filters ∈ [blockFilter], ∀ fragmentId ∈ filters.allFragmentIds,
      fragmentId ∉ reservedFragmentIds := by
    intro filters isFilter
    obtain rfl := List.mem_singleton.mp isFilter
    have listed : blockFilter.allFragmentIds = [3, 2] := rfl
    simp [listed, reservedFragmentIds, indexFragmentId, headerFragmentId, joinFragmentId]
  exact ⟨agree, rfl, filtered [blockFilter] false unreserved⟩

/-- The id of the indexes is not one of a body.  In the block there is no such body; the
    access to the segment takes the object of the indexes for one, whatever it shows. -/
theorem reservedBody_differs :
    SegmentBuilder.Naming fragmentInfo names ∧ (∀ entry ∈ blocks, entry.2.NamedBy fragmentInfo) ∧
      SegmentBuilder.build {} first blocks = .ok (segments, { expectedFragmentCount := some 2 }) ∧
      (∀ unchecked, ∃ body, SegmentBlockAccess.getBodyFragment
        ⟨.ofSegments unchecked names 6 segments, 1⟩ indexFragmentId = .ok body) ∧
      ∀ body, BlockAccess.getBodyFragment ⟨blockOf 7 (.uint8 1)⟩ indexFragmentId ≠ .ok body :=
  ⟨naming, named, built, fun _ => ⟨_, rfl⟩, fun _ => nofun⟩

end TwoBlockSegment

end Starkstream
