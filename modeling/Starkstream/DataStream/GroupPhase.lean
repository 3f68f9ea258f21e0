import Starkstream.Compaction.GroupBuilder

/-! # Choosing the blocks of a group

Before it fetches the segments of a group, the data stream evaluates the filters
of the client on the index of the group.  The rows of that index are blocks.  It
fetches the segments with a block that was selected, and of these only the
fragments that the selection asks for.  The index of the group is coarser than
those of the blocks: a block can be selected without having a row that matches.
It must not be the other way round.
-/

namespace Starkstream

/-- What is fetched of a group. -/
structure GroupPlan where
  blocksWithData : Bitmap
  fragmentIdsNeeded : Finset FragmentId

namespace GroupPlan

def addFilter (fragmentId : FragmentId) (indexes : IndexFragment) (plan : GroupPlan) (filter : Query.Filter) :
    Outcome DataStreamError GroupPlan := do
  let rows ← (filter.filter indexes).changeContext ⟨⟩ []
  if rows = ∅ then return plan
  else
    return ⟨plan.blocksWithData ∪ rows, insert fragmentId plan.fragmentIdsNeeded ∪ filter.joins.toFinset⟩

def addFragment (group : SegmentGroup) (plan : GroupPlan) (entry : FragmentId × List Query.Filter) :
    Outcome DataStreamError GroupPlan :=
  match group.index.indexes.find? (·.fragmentId == entry.1) with
  | none => Outcome.fail ⟨⟩ ["missing index", "fragment id: " ++ toString entry.1.toNat]
  | some indexes => entry.2.foldlM (addFilter entry.1 indexes) plan

/-- If the client requested all headers include all blocks in the group. -/
def addHeaders (groupStart blocksInGroup : Nat) (plan : GroupPlan) (blockFilter : Query.BlockFilter) : GroupPlan :=
  if blockFilter.alwaysIncludeHeader then
    { plan with
      blocksWithData := plan.blocksWithData ∪ (bitmapRange groupStart (groupStart + blocksInGroup)).toFinset }
  else plan

def addBlockFilter (group : SegmentGroup) (groupStart blocksInGroup : Nat) (plan : GroupPlan)
    (blockFilter : Query.BlockFilter) : Outcome DataStreamError GroupPlan :=
  blockFilter.iter.foldlM (addFragment group) (addHeaders groupStart blocksInGroup plan blockFilter)

/-- Without filters there is no need for the indexes and the joins. -/
def start (blockFilters : List Query.BlockFilter) : GroupPlan where
  blocksWithData := ∅
  fragmentIdsNeeded :=
    if blockFilters.isEmpty then {headerFragmentId} else {indexFragmentId, joinFragmentId, headerFragmentId}

/-- Use the group indices to compute which blocks have data for the client-provided filters. -/
def ofGroup (blockFilters : List Query.BlockFilter) (group : SegmentGroup) (groupStart blocksInGroup : Nat) :
    Outcome DataStreamError GroupPlan :=
  blockFilters.foldlM (addBlockFilter group groupStart blocksInGroup) (start blockFilters)

theorem addFilter_eq {fragmentId indexes} {plan : GroupPlan} {filter : Query.Filter} {rows}
    (filtered : filter.filter indexes = .ok rows) (nonempty : rows ≠ ∅) :
    plan.addFilter fragmentId indexes filter =
      .ok ⟨plan.blocksWithData ∪ rows, insert fragmentId plan.fragmentIdsNeeded ∪ filter.joins.toFinset⟩ := by
  rw [addFilter, filtered]
  exact if_neg nonempty

theorem addFilter_eq_of_empty {fragmentId indexes} {plan : GroupPlan} {filter : Query.Filter}
    (filtered : filter.filter indexes = .ok ∅) : plan.addFilter fragmentId indexes filter = .ok plan := by
  rw [addFilter, filtered]
  rfl

/-- A plan that fetches at least as much. -/
protected structure Le (left right : GroupPlan) : Prop where
  blocks : left.blocksWithData ⊆ right.blocksWithData
  fragments : left.fragmentIdsNeeded ⊆ right.fragmentIdsNeeded

namespace Le

theorem refl (plan : GroupPlan) : plan.Le plan := ⟨Finset.Subset.refl _, Finset.Subset.refl _⟩

theorem trans {left middle right : GroupPlan} (first : left.Le middle) (second : middle.Le right) : left.Le right :=
  ⟨first.blocks.trans second.blocks, first.fragments.trans second.fragments⟩

variable {before after : GroupPlan}

theorem foldlM {α : Type} {next : GroupPlan → α → Outcome DataStreamError GroupPlan}
    (grows : ∀ before item after, next before item = .ok after → before.Le after) {items : List α}
    (folded : items.foldlM next before = .ok after) : before.Le after :=
  foldlM_keeps (before.Le ·) (fun middle item last _ so one => so.trans (grows middle item last one)) (refl before)
    folded

/-- What one turn of such a loop adds is in the result. -/
theorem turn {α : Type} {next : GroupPlan → α → Outcome DataStreamError GroupPlan}
    (grows : ∀ before item after, next before item = .ok after → before.Le after) {items : List α}
    (folded : items.foldlM next before = .ok after) {item} (member : item ∈ items) :
    ∃ start middle, next start item = .ok middle ∧ middle.Le after := by
  induction items generalizing before with
  | nil => cases member
  | cons other rest ih =>
    obtain ⟨middle, one, others⟩ := bind_eq_ok.mp (List.foldlM_cons.symm.trans folded)
    rcases List.mem_cons.mp member with rfl | further
    · exact ⟨before, middle, one, foldlM grows others⟩
    · exact ih others further

theorem addFilter {fragmentId indexes filter} (added : before.addFilter fragmentId indexes filter = .ok after) :
    before.Le after := by
  obtain ⟨_, _, result⟩ := bind_eq_ok.mp added
  split at result
  next =>
      cases result
      exact refl before
  next =>
      cases result
      refine ⟨Finset.subset_union_left, (Finset.subset_insert ..).trans Finset.subset_union_left⟩

theorem addFragment {group : SegmentGroup} {entry} (added : before.addFragment group entry = .ok after) :
    before.Le after := by
  simp only [GroupPlan.addFragment] at added
  split at added
  next => cases added
  next => exact foldlM (fun _ _ _ => addFilter) added

theorem addHeaders (groupStart blocksInGroup : Nat) (plan : GroupPlan) (blockFilter : Query.BlockFilter) :
    plan.Le (plan.addHeaders groupStart blocksInGroup blockFilter) := by
  rw [GroupPlan.addHeaders]
  split
  next => exact ⟨Finset.subset_union_left, Finset.Subset.refl _⟩
  next => exact refl plan

theorem addBlockFilter {group : SegmentGroup} {groupStart blocksInGroup blockFilter}
    (added : before.addBlockFilter group groupStart blocksInGroup blockFilter = .ok after) : before.Le after :=
  (addHeaders groupStart blocksInGroup before blockFilter).trans (foldlM (fun _ _ _ => addFragment) added)

end Le

theorem always_needed {blockFilters : List Query.BlockFilter} {group groupStart blocksInGroup plan}
    (planned : ofGroup blockFilters group groupStart blocksInGroup = .ok plan) (some : blockFilters ≠ []) :
    indexFragmentId ∈ plan.fragmentIdsNeeded ∧ joinFragmentId ∈ plan.fragmentIdsNeeded ∧
      headerFragmentId ∈ plan.fragmentIdsNeeded := by
  have fromStart := (Le.foldlM (fun _ _ _ => Le.addBlockFilter) planned).fragments
  have notEmpty : blockFilters.isEmpty = false := by simpa using some
  simp only [start, notEmpty, Bool.false_eq_true, if_false] at fromStart
  exact ⟨fromStart (by simp), fromStart (by simp), fromStart (by simp)⟩

end GroupPlan

namespace Query.Filter

open SegmentGroupBuilder

theorem narrow_covers {covering fragment row} (covers : Covers covering fragment row) {conditions start rows}
    (narrowed : narrow fragment conditions start = .ok rows) (some : rows ≠ ∅) {others} (member : row ∈ others) :
    ∃ selected, narrow covering conditions others = .ok selected ∧ row ∈ selected := by
  induction conditions generalizing start others with
  | nil => exact ⟨others, rfl, member⟩
  | cons condition rest ih =>
    simp only [narrow] at narrowed ⊢
    cases indexAt : fragment.indexes[condition.indexId.toNat]? with
    | none => simp [indexAt, Outcome.fail] at narrowed
    | some index =>
      obtain ⟨bitmap, _, isBitmap, coveringAt, finds⟩ := covers _ index indexAt
      simp only [indexAt, isBitmap] at narrowed
      simp only [coveringAt]
      cases found : bitmap.get condition.key with
      | none =>
        rw [found] at narrowed
        exact absurd (Except.ok.inj narrowed).symm some
      | some =>
        rw [found] at narrowed
        obtain ⟨_, otherFound, inside⟩ := finds _ _ found
        rw [otherFound]
        exact ih narrowed (Finset.mem_inter.mpr ⟨member, inside⟩)

theorem narrow_succeeds {fragment : IndexFragment} {conditions}
    (known : ∀ condition ∈ conditions, condition.indexId.toNat < fragment.indexes.length) (start : Bitmap) :
    ∃ rows, narrow fragment conditions start = .ok rows := by
  induction conditions generalizing start with
  | nil => exact ⟨start, rfl⟩
  | cons condition rest ih =>
    have rest := ih fun other member => known other (List.mem_cons_of_mem _ member)
    simp only [narrow, List.getElem?_eq_getElem (known condition (List.mem_cons_self ..))]
    split
    next => exact rest start
    next =>
        split
        next => exact rest _
        next => exact ⟨∅, rfl⟩

end Query.Filter

/-- The conditions of the filters are on indexes that the fragments of the blocks have. -/
def Query.BlockFilter.NamesIndexes (blockFilter : Query.BlockFilter) (blocks : List (FragmentData IndexGroupFragment)) :
    Prop :=
  ∀ entry ∈ blockFilter.iter, ∀ filter ∈ entry.2, ∀ condition ∈ filter.conditions, ∀ block ∈ blocks,
    ∀ fragment ∈ block.data.indexes, fragment.fragmentId = entry.1 →
      condition.indexId.toNat < fragment.indexes.length

/-- Only the objects of some fragments were fetched. -/
def Fragments.SegmentAccess.only (access : Fragments.SegmentAccess) (needed : Finset FragmentId) :
    Fragments.SegmentAccess where
  firstBlock := access.firstBlock
  fragments fragmentId := if fragmentId ∈ needed then access.fragments fragmentId else none
  unchecked := access.unchecked

namespace GroupPlan

open SegmentGroupBuilder Fragments

section Group

variable {segments : List (Segment IndexGroupFragment)} {first segmentSize groupSize : Nat} {group : SegmentGroup}
  {position offset : Nat} {segment : Segment IndexGroupFragment} {block : FragmentData IndexGroupFragment}

/-- A block of the group. -/
structure IsBlock (segments : List (Segment IndexGroupFragment)) (position offset : Nat)
    (segment : Segment IndexGroupFragment) (block : FragmentData IndexGroupFragment) : Prop where
  segmentAt : segments[position]? = some segment
  blockAt : segment.data[offset]? = some block

theorem exists_isBlock (layout : Layout segments first segmentSize groupSize) (inGroup : position < groupSize)
    (inSegment : offset < segmentSize) : ∃ segment block, IsBlock segments position offset segment block := by
  obtain ⟨segment, segmentAt⟩ : ∃ segment, segments[position]? = some segment :=
    ⟨_, List.getElem?_eq_getElem (layout.size ▸ inGroup)⟩
  have length := congrArg List.length (layout.placed position segment segmentAt).2
  rw [List.length_map, List.length_range'] at length
  exact ⟨segment, _, segmentAt, List.getElem?_eq_getElem (length ▸ inSegment)⟩

section
variable (isBlock : IsBlock segments position offset segment block)
include isBlock

theorem IsBlock.mem : block ∈ segments.flatMap (·.data) :=
  List.mem_flatMap.mpr ⟨segment, List.mem_of_getElem? isBlock.segmentAt, List.mem_of_getElem? isBlock.blockAt⟩

variable (layout : Layout segments first segmentSize groupSize)
include layout

theorem IsBlock.number : offset < segmentSize ∧ block.cursor.number = first + position * segmentSize + offset := by
  obtain ⟨_, numbers⟩ := layout.placed position segment isBlock.segmentAt
  have here := congrArg (·[offset]?) numbers
  simp only [List.getElem?_map, isBlock.blockAt, Option.map_some] at here
  obtain ⟨inside, number⟩ := List.getElem?_eq_some_iff.mp here.symm
  rw [List.length_range'] at inside
  rw [List.getElem_range', Nat.one_mul] at number
  exact ⟨inside, number.symm⟩

/-- The block is in the range of the group, whose numbers are below 2^32. -/
theorem IsBlock.range (below : first + groupSize * segmentSize < 2 ^ 32) :
    asU32 block.cursor.number = block.cursor.number ∧ asU32 first = first ∧
      asU32 (groupSize * segmentSize) = groupSize * segmentSize ∧ first ≤ block.cursor.number ∧
      block.cursor.number < first + groupSize * segmentSize := by
  obtain ⟨_, _⟩ := isBlock.number layout
  have positionInside : position + 1 ≤ groupSize := by
    rw [← layout.size]
    exact (List.getElem?_eq_some_iff.mp isBlock.segmentAt).1
  have total := Nat.mul_le_mul_right segmentSize positionInside
  rw [Nat.succ_mul] at total
  have small : ∀ value < 2 ^ 32, asU32 value = value := fun value => Nat.mod_eq_of_lt
  refine ⟨small _ (by omega), small _ (by omega), small _ (by omega), by omega, by omega⟩

theorem IsBlock.find?_group (isBuilt : SegmentGroupBuilder.group segmentSize segments = .ok group) {fragment}
    (inBlock : fragment ∈ block.data.indexes) :
    group.index.indexes.find? (·.fragmentId == fragment.fragmentId) =
      some (fragmentIndex (asU32 first) (asU32 (groupSize * segmentSize))
        (fragment.fragmentId, addIndexes (indexItems fragment.fragmentId (segments.flatMap (·.data))))) := by
  have positive := Nat.lt_of_le_of_lt (Nat.zero_le _) (isBlock.number layout).1
  have listed : (fragmentItems (segments.flatMap (·.data))).filter (·.2.fragmentId = fragment.fragmentId) ≠ [] := by
    have item : (asU32 block.cursor.number, fragment) ∈ fragmentItems (segments.flatMap (·.data)) :=
      mem_fragmentItems.mpr ⟨block, isBlock.mem, inBlock, rfl⟩
    exact List.ne_nil_of_mem (List.mem_filter.mpr ⟨item, by simp⟩)
  rw [SegmentGroupBuilder.find?_group layout positive isBuilt, getElem?_foldl_addBlock, if_neg listed]
  rfl

end

variable {blockFilters : List Query.BlockFilter} {plan : GroupPlan} {blockFilter : Query.BlockFilter}

theorem of_always (isBlock : IsBlock segments position offset segment block)
    (layout : Layout segments first segmentSize groupSize) (below : first + groupSize * segmentSize < 2 ^ 32)
    (planned : ofGroup blockFilters group first (groupSize * segmentSize) = .ok plan)
    (isFilter : blockFilter ∈ blockFilters) (always : blockFilter.alwaysIncludeHeader = true) :
    block.cursor.number ∈ plan.blocksWithData := by
  obtain ⟨_, _, added, toEnd⟩ := Le.turn (fun _ _ _ => Le.addBlockFilter) planned isFilter
  have fromHeaders := (Le.foldlM (fun _ _ _ => Le.addFragment) added).trans toEnd
  refine fromHeaders.blocks ?_
  rw [addHeaders, if_pos always]
  refine Finset.mem_union_right _ (List.mem_toFinset.mpr ?_)
  obtain ⟨_, _, _, _, _⟩ := isBlock.range layout below
  rw [bitmapRange_eq (by omega) below, List.mem_range'_1]
  omega

variable {objects : SegmentAccess} (indexed : objects.fragments indexFragmentId = some (.index segment))
include indexed

theorem getIndexFragment_eq (isBlock : IsBlock segments position offset segment block) (fragmentId : FragmentId) :
    FragmentAccess.getIndexFragment (.segment ⟨objects, offset⟩) fragmentId =
      match block.data.indexes.find? (·.fragmentId == fragmentId) with
      | some index => .ok index
      | none => Outcome.fail ⟨⟩ ["index for fragment not found", "fragment id: " ++ toString fragmentId.toNat] := by
  cases found : block.data.indexes.find? (·.fragmentId == fragmentId) with
  | none | some =>
    simp only [FragmentAccess.getIndexFragment, SegmentBlockAccess.getIndexFragment, indexed,
      UncheckedReads.indexAt, atOffset, isBlock.blockAt, bind, Except.bind, found]

variable {fragmentId : FragmentId}

section
variable (isBlock : IsBlock segments position offset segment block)
include isBlock

theorem mem_of_getIndexFragment {fragment}
    (found : FragmentAccess.getIndexFragment (.segment ⟨objects, offset⟩) fragmentId = .ok fragment) :
    fragment ∈ block.data.indexes ∧ fragment.fragmentId = fragmentId := by
  rw [getIndexFragment_eq indexed isBlock] at found
  split at found
  next search =>
      cases found
      exact ⟨List.mem_of_find?_eq_some search, by simpa using List.find?_some search⟩
  next => cases found

variable (layout : Layout segments first segmentSize groupSize) (regular : Regular (segments.flatMap (·.data)))
  (oneVariant : OneVariant (segments.flatMap (·.data)))
include layout regular oneVariant

/-- A filter that matches a row of a block adds the block to the plan, and the
    fragments it is about: its own and those it is joined with. -/
theorem adds_matched (below : first + groupSize * segmentSize < 2 ^ 32)
    (isBuilt : SegmentGroupBuilder.group segmentSize segments = .ok group) {before}
    (added : blockFilter.iter.foldlM (addFragment group) before = .ok plan) {filter : Query.Filter}
    (isMatched : Matched (.segment ⟨objects, offset⟩) blockFilter fragmentId filter) :
    block.cursor.number ∈ plan.blocksWithData ∧ fragmentId ∈ plan.fragmentIdsNeeded ∧
      ∀ target ∈ filter.joins, target ∈ plan.fragmentIdsNeeded := by
  obtain ⟨_, _, _, inFilter, member, found, filtered, some⟩ := isMatched
  obtain ⟨inBlock, rfl⟩ := mem_of_getIndexFragment indexed isBlock found
  obtain ⟨before, _, addedFragment, toEnd⟩ := Le.turn (fun _ _ _ => Le.addFragment) added inFilter
  rw [addFragment, isBlock.find?_group layout isBuilt inBlock] at addedFragment
  obtain ⟨_, _, addedFilter, toFragment⟩ := Le.turn (fun _ _ _ => Le.addFilter) addedFragment member
  obtain ⟨sameNumber, sameFirst, sameLen, lower, upper⟩ := isBlock.range layout below
  have inRange : asU32 block.cursor.number ∈ Finset.Ico (asU32 first) (asU32 first + asU32 (groupSize * segmentSize)) := by
    rw [sameNumber, sameFirst, sameLen, Finset.mem_Ico]
    exact ⟨lower, upper⟩
  have covers := regular.covers oneVariant (asU32 first) (asU32 (groupSize * segmentSize)) isBlock.mem inBlock rfl
  obtain ⟨selected, narrowed, inSelected⟩ := Query.Filter.narrow_covers covers filtered some inRange
  have nonempty : selected ≠ ∅ := Finset.ne_empty_of_mem inSelected
  rw [sameNumber] at inSelected
  rw [addFilter_eq narrowed nonempty] at addedFilter
  cases addedFilter
  have toPlan := toFragment.trans toEnd
  refine ⟨toPlan.blocks (Finset.mem_union_right _ inSelected), toPlan.fragments ?_, fun target joined => ?_⟩
  · exact Finset.mem_union_left _ (Finset.mem_insert_self ..)
  · exact toPlan.fragments (Finset.mem_union_right _ (List.mem_toFinset.mpr joined))

theorem of_matched (below : first + groupSize * segmentSize < 2 ^ 32)
    (isBuilt : SegmentGroupBuilder.group segmentSize segments = .ok group)
    (planned : ofGroup blockFilters group first (groupSize * segmentSize) = .ok plan)
    (isFilter : blockFilter ∈ blockFilters) {filter : Query.Filter}
    (isMatched : Matched (.segment ⟨objects, offset⟩) blockFilter fragmentId filter) :
    block.cursor.number ∈ plan.blocksWithData ∧ fragmentId ∈ plan.fragmentIdsNeeded ∧
      ∀ target ∈ filter.joins, target ∈ plan.fragmentIdsNeeded := by
  obtain ⟨_, _, added, toEnd⟩ := Le.turn (fun _ _ _ => Le.addBlockFilter) planned isFilter
  obtain ⟨isAdded, own, joined⟩ := adds_matched indexed isBlock layout regular oneVariant below isBuilt added isMatched
  exact ⟨toEnd.blocks isAdded, toEnd.fragments own, fun target isTarget => toEnd.fragments (joined target isTarget)⟩

theorem ofGroup_succeeds (isBuilt : SegmentGroupBuilder.group segmentSize segments = .ok group)
    (named : ∀ blockFilter ∈ blockFilters, blockFilter.NamesIndexes (segments.flatMap (·.data))) {names isLive result}
    (filtered : filterFragment (.segment ⟨objects, offset⟩) names isLive blockFilters = .ok result) :
    ∃ plan, ofGroup blockFilters group first (groupSize * segmentSize) = .ok plan := by
  refine foldlM_succeeds (fun blockFilter isFilter plan => ?_) _
  refine foldlM_succeeds (fun entry inFilter plan => ?_) _
  -- The filters on the fragment were evaluated on the block, so that the block has the fragment.
  obtain ⟨_, _, turn⟩ := foldlM_turn filtered isFilter
  obtain ⟨_, filteredBlock, _⟩ := bind_eq_ok.mp turn
  obtain ⟨_, matched, _⟩ := bind_eq_ok.mp filteredBlock
  obtain ⟨_, _, matchedFragment⟩ := foldlM_turn matched inFilter
  obtain ⟨fragment, found, _⟩ := bind_eq_ok.mp matchedFragment
  obtain ⟨inBlock, same⟩ := mem_of_getIndexFragment indexed isBlock (Outcome.changeContext_eq_ok.mp found)
  have here := isBlock.find?_group layout isBuilt inBlock
  rw [same] at here
  simp only [addFragment, here]
  refine foldlM_succeeds (fun filter member plan => ?_) _
  have covers := regular.covers oneVariant (asU32 first) (asU32 (groupSize * segmentSize)) isBlock.mem inBlock same
  have known : ∀ condition ∈ filter.conditions, condition.indexId.toNat <
      (fragmentIndex (asU32 first) (asU32 (groupSize * segmentSize))
        (entry.1, addIndexes (indexItems entry.1 (segments.flatMap (·.data))))).indexes.length := by
    intro condition inConditions
    have inside := named blockFilter isFilter entry inFilter filter member condition inConditions block isBlock.mem
      fragment inBlock same
    obtain ⟨_, _, _, coveringAt, _⟩ := covers _ _ (List.getElem?_eq_getElem inside)
    exact (List.getElem?_eq_some_iff.mp coveringAt).1
  obtain ⟨rows, narrowed⟩ := Query.Filter.narrow_succeeds known _
  by_cases empty : rows = ∅
  · exact ⟨plan, addFilter_eq_of_empty (narrowed.trans (congrArg _ empty))⟩
  · exact ⟨_, addFilter_eq narrowed empty⟩

variable (below : first + groupSize * segmentSize < 2 ^ 32)
  (isBuilt : SegmentGroupBuilder.group segmentSize segments = .ok group)
  (planned : ofGroup blockFilters group first (groupSize * segmentSize) = .ok plan)
include below isBuilt planned

theorem of_needsBody (isFilter : blockFilter ∈ blockFilters)
    (needed : NeedsBody (.segment ⟨objects, offset⟩) blockFilter fragmentId) : fragmentId ∈ plan.fragmentIdsNeeded := by
  obtain ⟨_, _, isMatched, same⟩ := needed
  obtain ⟨_, own, joined⟩ :=
    of_matched indexed isBlock layout regular oneVariant below isBuilt planned isFilter isMatched
  rcases same with rfl | target
  · exact own
  · exact joined fragmentId target

theorem filterFragment_only (names : FragmentNames) (isLive : Bool) :
    Outcome.Same (filterFragment (.segment ⟨objects, offset⟩) names isLive blockFilters)
      (filterFragment (.segment ⟨objects.only plan.fragmentIdsNeeded, offset⟩) names isLive blockFilters) := by
  refine filterFragment_same (fun blockFilter isFilter names isLive => ?_) names isLive
  have started := always_needed planned (List.ne_nil_of_mem isFilter)
  have unchanged : ∀ fragmentId ∈ plan.fragmentIdsNeeded,
      (objects.only plan.fragmentIdsNeeded).fragments fragmentId = objects.fragments fragmentId :=
    fun fragmentId needed => if_pos needed
  refine filterBlock_same (fun entry _ => ?_) (fun source _ _ => ?_) ?_ (fun fragmentId needed => ?_) names isLive
  · simp only [FragmentAccess.getIndexFragment, SegmentBlockAccess.getIndexFragment, unchanged _ started.1]
    exact .refl _
  · simp only [FragmentAccess.getJoinFragment, SegmentBlockAccess.getJoinFragment, unchanged _ started.2.1]
    exact .refl _
  · simp only [FragmentAccess.getHeaderFragment, SegmentBlockAccess.getHeaderFragment, unchanged _ started.2.2]
    exact .refl _
  · have fetched := of_needsBody indexed isBlock layout regular oneVariant below isBuilt planned isFilter needed
    simp only [FragmentAccess.getBodyFragment, SegmentBlockAccess.getBodyFragment, unchanged _ fetched]
    exact .refl _

end

/-- The index of a group hides no match, and what is fetched is enough.  Filters
    that a block is filtered with without an error can be evaluated on the group.  A
    block with a match is selected, the fragments that are read of a block are
    fetched, and filtering what was fetched is filtering the block. -/
theorem selects_and_fetches (isBlock : IsBlock segments position offset segment block)
    (layout : Layout segments first segmentSize groupSize) (regular : Regular (segments.flatMap (·.data)))
    (oneVariant : OneVariant (segments.flatMap (·.data))) (below : first + groupSize * segmentSize < 2 ^ 32)
    (isBuilt : SegmentGroupBuilder.group segmentSize segments = .ok group) (blockFilters : List Query.BlockFilter) :
    ((∀ blockFilter ∈ blockFilters, blockFilter.NamesIndexes (segments.flatMap (·.data))) →
      ∀ names isLive result, filterFragment (.segment ⟨objects, offset⟩) names isLive blockFilters = .ok result →
        ∃ plan, ofGroup blockFilters group first (groupSize * segmentSize) = .ok plan) ∧
    ∀ plan, ofGroup blockFilters group first (groupSize * segmentSize) = .ok plan →
      (∀ blockFilter ∈ blockFilters,
        (blockFilter.alwaysIncludeHeader = true ∨
          ∃ fragmentId filter, Matched (.segment ⟨objects, offset⟩) blockFilter fragmentId filter) →
        first + position * segmentSize + offset ∈ plan.blocksWithData) ∧
      (blockFilters ≠ [] → indexFragmentId ∈ plan.fragmentIdsNeeded ∧ joinFragmentId ∈ plan.fragmentIdsNeeded ∧
        headerFragmentId ∈ plan.fragmentIdsNeeded) ∧
      (∀ blockFilter ∈ blockFilters, ∀ fragmentId, NeedsBody (.segment ⟨objects, offset⟩) blockFilter fragmentId →
        fragmentId ∈ plan.fragmentIdsNeeded) ∧
      ∀ names isLive, Outcome.Same (filterFragment (.segment ⟨objects, offset⟩) names isLive blockFilters)
        (filterFragment (.segment ⟨objects.only plan.fragmentIdsNeeded, offset⟩) names isLive blockFilters) := by
  refine ⟨fun named names isLive result filtered => ?_, fun plan planned =>
    ⟨fun blockFilter isFilter wanted => ?_, ?_, ?_, ?_⟩⟩
  · exact ofGroup_succeeds indexed isBlock layout regular oneVariant isBuilt named filtered
  · rw [← (isBlock.number layout).2]
    rcases wanted with always | ⟨fragmentId, filter, isMatched⟩
    · exact of_always isBlock layout below planned isFilter always
    · exact (of_matched indexed isBlock layout regular oneVariant below isBuilt planned isFilter isMatched).1
  · exact always_needed planned
  · exact fun blockFilter isFilter fragmentId =>
      of_needsBody indexed isBlock layout regular oneVariant below isBuilt planned isFilter
  · exact filterFragment_only indexed isBlock layout regular oneVariant below isBuilt planned

end Group

end GroupPlan

namespace TwoBlocks

/-! A group of one segment with two blocks.  Both have one index, on the same fragment. -/

open SegmentGroupBuilder Fragments

def indexOf (keys : List ScalarValue) : IndexFragment :=
  ⟨2, 0, 1, [⟨0, .bitmap (BitmapIndexBuilder.build (insertKeys 0 ∅ keys))⟩]⟩

def segmentOf (first second : List ScalarValue) : Segment IndexGroupFragment :=
  ⟨⟨0, ⟨[1]⟩⟩, [⟨⟨0, ⟨[1]⟩⟩, ⟨[indexOf first]⟩⟩, ⟨⟨1, ⟨[2]⟩⟩, ⟨[indexOf second]⟩⟩]⟩

/-- The second block has the key that is filtered for. -/
def keyed : Segment IndexGroupFragment := segmentOf [.uint8 0] [.uint8 1]

def names : FragmentNames := FragmentNames.base.insert 2 "event"

/-- Every block has one event; its bytes and those of the header are the hash. -/
def objectsOf (segment : Segment IndexGroupFragment) : Fragments.SegmentAccess where
  firstBlock := segment.firstBlock.number
  fragments fragmentId :=
    if fragmentId = indexFragmentId then some (.index segment)
    else if fragmentId = headerFragmentId then
      some (.header ⟨segment.firstBlock, segment.data.map fun entry => ⟨entry.cursor, ⟨entry.cursor.hash.bytes⟩⟩⟩)
    else if fragmentId = 2 then
      some (.body ⟨segment.firstBlock, segment.data.map fun entry =>
        ⟨entry.cursor, ⟨2, "event", [entry.cursor.hash.bytes]⟩⟩⟩)
    else none
  unchecked := default

def filter : Query.Filter := ⟨1, 2, [⟨0, .uint8 1⟩], []⟩

def blockFilter : Query.BlockFilter := Query.BlockFilter.addFilter {} filter

theorem layout (first second : List ScalarValue) : Layout [segmentOf first second] 0 2 1 where
  size := rfl
  placed position segment segmentAt := by
    obtain ⟨rfl, rfl⟩ : position = 0 ∧ segmentOf first second = segment := by
      cases position with
      | zero => simpa using segmentAt
      | succ => simp at segmentAt
    exact ⟨rfl, rfl⟩

theorem regular (first second : List ScalarValue) :
    Regular ([segmentOf first second].flatMap (·.data)) where
  sameFragments := by simp [segmentOf, indexOf]
  bitmaps := by simp [segmentOf, indexOf]
  positions block inBlocks fragment inBlock position index indexAt := by
    have single : fragment.indexes.length = 1 ∧ ∀ index ∈ fragment.indexes, index.indexId = 0 := by
      simp only [segmentOf, List.flatMap_cons, List.flatMap_nil, List.append_nil, List.mem_cons, List.not_mem_nil,
        or_false] at inBlocks
      rcases inBlocks with rfl | rfl <;> simp_all [indexOf]
    have inside := (List.getElem?_eq_some_iff.mp indexAt).1
    rw [single.2 index (List.mem_of_getElem? indexAt)]
    show 0 = position
    omega

theorem mem_keys {keys index} (member : index ∈ (indexOf keys).indexes) {key} (hasKey : key ∈ index.index.keys) :
    key ∈ keys := by
  obtain rfl := List.mem_singleton.mp member
  obtain ⟨_, listed, rfl⟩ := List.mem_map.mp hasKey
  have inserted := mem_insertKeys.mp (Grouping.mem_of_mem_toList listed)
  simpa using inserted

theorem oneVariant : OneVariant ([keyed].flatMap (·.data)) := by
  refine fun fragmentId indexId => ⟨3, fun item listed _ key hasKey => ?_⟩
  obtain ⟨_, inBlocks, _, inBlock, _, inFragment, _⟩ := mem_indexItems.mp listed
  simp only [keyed, segmentOf, List.flatMap_cons, List.flatMap_nil, List.append_nil, List.mem_cons, List.not_mem_nil,
    or_false] at inBlocks
  rcases inBlocks with rfl | rfl
  · obtain rfl := List.mem_singleton.mp inBlock
    rw [List.mem_singleton.mp (mem_keys inFragment hasKey)]
    rfl
  · obtain rfl := List.mem_singleton.mp inBlock
    rw [List.mem_singleton.mp (mem_keys inFragment hasKey)]
    rfl

theorem named (first second : List ScalarValue) :
    ∀ filters ∈ [blockFilter], filters.NamesIndexes ([segmentOf first second].flatMap (·.data)) := by
  simp only [List.mem_singleton, forall_eq]
  intro entry inFilter
  have single : entry = (2, [filter]) := by simpa using (show entry ∈ [(2, [filter])] from inFilter)
  subst single
  simp [filter, segmentOf, indexOf]

/-- The group finds the block with the key. -/
theorem second_selected : ∃ group plan, SegmentGroupBuilder.group 2 [keyed] = .ok group ∧
    GroupPlan.ofGroup [blockFilter] group 0 2 = .ok plan ∧
    (∃ fragmentId filter, Matched (.segment ⟨objectsOf keyed, 1⟩) blockFilter fragmentId filter) ∧
    1 ∈ plan.blocksWithData := by
  have isMatched : ∃ fragmentId filter, Matched (.segment ⟨objectsOf keyed, 1⟩) blockFilter fragmentId filter :=
    ⟨2, filter, [filter], indexOf [.uint8 1], {0}, List.mem_singleton.mpr rfl, List.mem_singleton.mpr rfl, rfl,
      by decide, by decide⟩
  have isBlock : GroupPlan.IsBlock [keyed] 0 1 keyed ⟨⟨1, ⟨[2]⟩⟩, ⟨[indexOf [.uint8 1]]⟩⟩ := ⟨rfl, rfl⟩
  have isObject : (objectsOf keyed).fragments indexFragmentId = some (.index keyed) := rfl
  obtain ⟨group, isBuilt⟩ : ∃ group, SegmentGroupBuilder.group 2 [keyed] = .ok group := ⟨_, rfl⟩
  obtain ⟨planned, selects⟩ := GroupPlan.selects_and_fetches isObject isBlock (layout _ _) (regular _ _) oneVariant
    (by decide) isBuilt [blockFilter]
  obtain ⟨plan, isPlan⟩ := planned (named _ _) names false (true, [⟨some [2], [⟨2, {1}, [2]⟩]⟩]) (by decide +kernel)
  exact ⟨group, plan, isBuilt, isPlan, isMatched,
    (selects plan isPlan).1 blockFilter (List.mem_singleton.mpr rfl) (.inr isMatched)⟩

/-- With keys of two kinds in the index of the group, the search for the number
    takes the other keys to be greater and does not find it. -/
theorem mixedKeys_hidden : ∃ group plan,
    Layout [segmentOf [.bool false, .bool true] [.uint8 1]] 0 2 1 ∧
    Regular ([segmentOf [.bool false, .bool true] [.uint8 1]].flatMap (·.data)) ∧
    SegmentGroupBuilder.group 2 [segmentOf [.bool false, .bool true] [.uint8 1]] = .ok group ∧
    GroupPlan.ofGroup [blockFilter] group 0 2 = .ok plan ∧
    (∃ fragmentId filter, Matched (.segment ⟨objectsOf (segmentOf [.bool false, .bool true] [.uint8 1]), 1⟩) blockFilter
      fragmentId filter) ∧ 1 ∉ plan.blocksWithData :=
  ⟨_, _, layout _ _, regular _ _, rfl, rfl, ⟨2, filter, [filter], indexOf [.uint8 1], {0}, List.mem_singleton.mpr rfl,
    List.mem_singleton.mpr rfl, rfl, by decide, by decide⟩, by decide⟩

end TwoBlocks

end Starkstream
