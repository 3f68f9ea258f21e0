import Starkstream.DataStream.GroupPhase
import Starkstream.DataStream.Stream

/-! # Filters on stored objects

The stream asks a filter for two things: the blocks that it selects on the index of a
group, and whether it matches a block.  Here are the answers of the filters of clients on
stored objects.  With them the stream plans the blocks of a group that `GroupPlan` plans,
and has data for a block when `filter_fragment` has some.  When the objects are those
that compaction writes, the index of a group has every block of the group that matches.
-/

namespace Starkstream

open Fragments

namespace GroupPlan

def union (left right : GroupPlan) : GroupPlan :=
  ⟨left.blocksWithData ∪ right.blocksWithData, left.fragmentIdsNeeded ∪ right.fragmentIdsNeeded⟩

/-- A loop that adds the same to every plan. -/
theorem foldlM_union {α : Type} {next : GroupPlan → α → Outcome DataStreamError GroupPlan}
    (adds : ∀ plan item, next plan item = (next ⟨∅, ∅⟩ item).map plan.union) (items : List α) (plan : GroupPlan) :
    items.foldlM next plan = (items.foldlM next ⟨∅, ∅⟩).map plan.union := by
  induction items generalizing plan with
  | nil => simp [union, pure, Except.pure, Except.map]
  | cons item rest ih =>
    rw [List.foldlM_cons, List.foldlM_cons, adds plan]
    cases next ⟨∅, ∅⟩ item with
    | error => rfl
    | ok added =>
      show rest.foldlM next (plan.union added) = (rest.foldlM next added).map plan.union
      rw [ih (plan.union added), ih added]
      cases rest.foldlM next ⟨∅, ∅⟩ with
      | error => rfl
      | ok => simp [union, Except.map, Finset.union_assoc]

theorem addFragment_union (group : SegmentGroup) (plan : GroupPlan) (entry : FragmentId × List Query.Filter) :
    addFragment group plan entry = (addFragment group ⟨∅, ∅⟩ entry).map plan.union := by
  simp only [addFragment]
  cases group.index.indexes.find? (·.fragmentId == entry.1) with
  | none => rfl
  | some indexes =>
    refine foldlM_union (fun plan filter => ?_) entry.2 plan
    rw [addFilter, addFilter]
    cases (filter.filter indexes).changeContext (⟨⟩ : DataStreamError) [] with
    | error => rfl
    | ok rows =>
      by_cases none : rows = ∅ <;> simp [none, union, bind, Except.bind, pure, Except.pure, Except.map]

end GroupPlan

/-- The objects that a stream reads. -/
structure StoredObjects where
  names : FragmentNames
  groups : Nat → Option SegmentGroup
  /-- The objects of the segment with the given first block. -/
  segment : Nat → Fragments.SegmentAccess
  access : Cursor → FragmentAccess

namespace StoredObjects

variable (objects : StoredObjects)

def groupRows (filter : Query.BlockFilter) (groupStart : Nat) : Outcome DataStreamError (List Nat) :=
  match objects.groups groupStart with
  | none => Outcome.fail ⟨⟩ ["failed to get group future"]
  | some group => do
      let plan ← filter.iter.foldlM (GroupPlan.addFragment group) ⟨∅, ∅⟩
      return plan.blocksWithData.sort (· ≤ ·)

def blockFilter (filter : Query.BlockFilter) : BlockFilter :=
  ⟨filter.headerFilter, objects.groupRows filter,
    fun block => blockMatches (objects.access block) objects.names filter⟩

/-! ## The two models agree -/

theorem blocksWithData_eq_ofGroup {groupStart group} (isGroup : objects.groups groupStart = some group)
    (filters : List Query.BlockFilter) (blocksInGroup : Nat) :
    (blocksWithData (filters.map objects.blockFilter) groupStart blocksInGroup).map List.toFinset =
      (GroupPlan.ofGroup filters group groupStart blocksInGroup).map (·.blocksWithData) := by
  suffices general : ∀ found (plan : GroupPlan), found.toFinset = plan.blocksWithData →
      ((filters.map objects.blockFilter).foldlM (addBlocksWithData groupStart blocksInGroup) found).map List.toFinset =
        (filters.foldlM (GroupPlan.addBlockFilter group groupStart blocksInGroup) plan).map (·.blocksWithData) from
    general [] (.start filters) rfl
  induction filters with
  | nil => exact fun found plan same => congrArg Except.ok same
  | cons filter rest ih =>
    intro found plan same
    rw [List.map_cons, List.foldlM_cons, List.foldlM_cons, GroupPlan.addBlockFilter,
      GroupPlan.foldlM_union (GroupPlan.addFragment_union group)]
    simp only [addBlocksWithData, blockFilter, groupRows, isGroup]
    cases filter.iter.foldlM (GroupPlan.addFragment group) ⟨∅, ∅⟩ with
    | error => rfl
    | ok added =>
      refine ih _ _ ?_
      by_cases always : filter.headerFilter = .always <;>
        simp [GroupPlan.addHeaders, GroupPlan.union, Query.BlockFilter.alwaysIncludeHeader,
          BlockFilter.alwaysIncludeHeader, always, ← same]

section
variable {block : Cursor} {header : HeaderFragment}
  (readable : (objects.access block).getHeaderFragment = .ok header) (isLive : Bool)
include readable

theorem addData_eq (hasData : Bool) (filter : Query.BlockFilter) :
    addData isLive block hasData (objects.blockFilter filter) =
      (filterBlock (objects.access block) objects.names isLive filter).map (hasData || !·.isEmpty) := by
  simp only [addData, blockFilter, blockMatches, filterBlock, readHeader, readable]
  cases filter.iter.foldlM (matchFragment (objects.access block)) ⟨∅, ∅⟩ with
  | error => rfl
  | ok matching =>
  simp only [bind, Except.bind]
  cases matching.joins.toList.foldlM (joinFragment (objects.access block)) matching.fragmentMatches with
  | error => rfl
  | ok fragmentMatches =>
  simp only
  -- a header that is not sent goes with no match, and with no match no body is read
  cases none : fragmentMatches.isEmpty with
  | true =>
    have nothing : fragmentMatches.toList = [] := by
      obtain rfl := Std.ExtTreeMap.isEmpty_iff.mp none
      rfl
    simp only [nothing, List.mapM_nil, shouldSendHeader, none]
    cases filter.headerFilter <;> cases isLive <;> cases hasData <;> rfl
  | false =>
    have sent : shouldSendHeader filter.headerFilter isLive fragmentMatches = true := by
      cases filter.headerFilter <;> simp [shouldSendHeader, none]
    simp only [sent, if_true]
    cases fragmentMatches.toList.mapM (readBody (objects.access block) objects.names) with
    | error => rfl
    | ok matchedFragments =>
      simp only
      cases matchedFragments.mapM MatchedFragment.items with
      | error => rfl
      | ok => cases filter.headerFilter <;> rfl

/-- The stream has data for a block when `filter_fragment` has some. -/
theorem filterFragment_eq (filters : List Query.BlockFilter) :
    filterFragment (filters.map objects.blockFilter) isLive block =
      (Fragments.filterFragment (objects.access block) objects.names isLive filters).map Prod.fst := by
  suffices general : ∀ hasData blocks, (filters.map objects.blockFilter).foldlM (addData isLive block) hasData =
      (filters.foldlM (filterNext (objects.access block) objects.names isLive) (hasData, blocks)).map Prod.fst from
    general false []
  induction filters with
  | nil => exact fun _ _ => rfl
  | cons filter rest ih =>
    intro hasData blocks
    rw [List.map_cons, List.foldlM_cons, List.foldlM_cons, filterNext, objects.addData_eq readable]
    cases filterBlock (objects.access block) objects.names isLive filter with
    | error => rfl
    | ok => exact ih _ _

end

/-- A filter that matches a block matches a row of it. -/
theorem matched_of_blockMatches {filter : Query.BlockFilter} {block}
    (matches_ : blockMatches (objects.access block) objects.names filter = .ok true) :
    ∃ fragmentId rowFilter, Matched (objects.access block) filter fragmentId rowFilter := by
  obtain ⟨matching, matched, later⟩ := bind_eq_ok.mp matches_
  obtain ⟨fragmentMatches, joined, later⟩ := bind_eq_ok.mp later
  obtain ⟨_, -, later⟩ := bind_eq_ok.mp later
  obtain ⟨_, -, some⟩ := bind_eq_ok.mp later
  have nonempty : fragmentMatches ≠ ∅ := by
    rintro rfl
    cases some
  rw [ne_eq, Std.ExtTreeMap.eq_empty_iff_forall_not_mem, not_forall_not] at nonempty
  obtain ⟨fragmentId, member⟩ := nonempty
  have sound := sound_of_matched (fun _ => id) ⟨by simp, by simp⟩ matched
  obtain ⟨source, rowFilter, isMatched, -⟩ := due_of_joined sound joined fragmentId member
  exact ⟨source, rowFilter, isMatched⟩

/-- The segments and the groups of a chain as compaction writes them.  The blocks of a
    segment are read at their offsets, and a group was built from the indexes of its
    segments, which are alike in all blocks and have keys of one kind. -/
structure Compacted (segments : Nat → Option (List Cursor)) (startingBlock segmentSize groupSize : Nat) : Prop where
  placed : ∀ first headers, segments first = some headers →
    (∃ place, first = startingBlock + place * segmentSize) ∧ headers.length ≤ segmentSize ∧
    ∀ (offset : Nat) block, headers[offset]? = some block →
      objects.access block = .segment ⟨objects.segment first, offset⟩
  built : ∀ first group, objects.groups first = some group →
    (∃ place, first = startingBlock + place * (groupSize * segmentSize)) ∧
    ∃ parts, SegmentGroupBuilder.Layout parts first segmentSize groupSize ∧
      SegmentGroupBuilder.Regular (parts.flatMap (·.data)) ∧ SegmentGroupBuilder.OneVariant (parts.flatMap (·.data)) ∧
      SegmentGroupBuilder.group segmentSize parts = .ok group ∧
      ∀ (place : Nat) part, parts[place]? = some part →
        (objects.segment (first + place * segmentSize)).fragments indexFragmentId = some (.index part)

end StoredObjects

/-- The filter matches what a segment holds for a block. -/
def BlockFilter.MatchesStored (filter : BlockFilter) (segments : Nat → Option (List Cursor)) (number : Nat) : Prop :=
  ∃ start headers block, segments start = some headers ∧ start ≤ number ∧ headers[number - start]? = some block ∧
    filter.blockMatches block = .ok true

/-- The index of a group has every block of the group that a filter matches. -/
def Indexed (filters : List BlockFilter) (segments : Nat → Option (List Cursor)) (blocksInGroup : Nat) : Prop :=
  ∀ filter ∈ filters, ∀ groupStart rows, groupStart + blocksInGroup < 2 ^ 32 → filter.groupRows groupStart = .ok rows →
    ∀ number, groupStart ≤ number → number < groupStart + blocksInGroup → filter.MatchesStored segments number →
      number ∈ rows

/-- A segment that has a number of a group is one of the segments of the group. -/
theorem place_in_group {start segmentSize groupSize group segment number : Nat}
    (inGroup : start + group * (groupSize * segmentSize) ≤ number)
    (groupEnds : number < start + group * (groupSize * segmentSize) + groupSize * segmentSize)
    (inSegment : start + segment * segmentSize ≤ number)
    (segmentEnds : number < start + segment * segmentSize + segmentSize) :
    ∃ place < groupSize,
      start + segment * segmentSize = start + group * (groupSize * segmentSize) + place * segmentSize := by
  have lower : group * groupSize ≤ segment := by
    refine Nat.lt_succ_iff.mp (Nat.lt_of_mul_lt_mul_right (a := segmentSize) ?_)
    rw [Nat.succ_mul, Nat.mul_assoc]
    omega
  have upper : segment < (group + 1) * groupSize := by
    refine Nat.lt_of_mul_lt_mul_right (a := segmentSize) ?_
    rw [Nat.mul_assoc, Nat.succ_mul]
    omega
  obtain ⟨place, rfl⟩ := Nat.exists_eq_add_of_le lower
  refine ⟨place, by rw [Nat.succ_mul] at upper; omega, ?_⟩
  rw [Nat.add_mul, Nat.mul_assoc, Nat.add_assoc]

theorem StoredObjects.Compacted.indexed {objects : StoredObjects} {segments startingBlock segmentSize groupSize}
    (compacted : objects.Compacted segments startingBlock segmentSize groupSize) (filters : List Query.BlockFilter) :
    Indexed (filters.map objects.blockFilter) segments (groupSize * segmentSize) := by
  rintro _ member groupStart rows small isRows number lower upper
    ⟨start, headers, block, isSegment, below, isBlock, matched⟩
  obtain ⟨filter, -, rfl⟩ := List.mem_map.mp member
  simp only [blockFilter, groupRows] at isRows
  cases isGroup : objects.groups groupStart with
  | none =>
    rw [isGroup] at isRows
    cases isRows
  | some group =>
    rw [isGroup] at isRows
    obtain ⟨plan, planned, result⟩ := bind_eq_ok.mp isRows
    cases result
    obtain ⟨⟨groupPlace, rfl⟩, parts, layout, regular, oneVariant, isBuilt, indexes⟩ := compacted.built _ _ isGroup
    obtain ⟨⟨segmentPlace, rfl⟩, size, reads⟩ := compacted.placed _ _ isSegment
    have inside := (List.getElem?_eq_some_iff.mp isBlock).1
    obtain ⟨place, inGroup, isPlace⟩ := place_in_group lower upper below (by omega)
    obtain ⟨part, entry, isEntry⟩ := GroupPlan.exists_isBlock layout inGroup (inside.trans_le size)
    obtain ⟨fragmentId, rowFilter, isMatched⟩ := objects.matched_of_blockMatches matched
    rw [reads _ _ isBlock] at isMatched
    have isIndex := indexes place part isEntry.segmentAt
    rw [← isPlace] at isIndex
    have added :=
      (GroupPlan.adds_matched isIndex isEntry layout regular oneVariant small isBuilt planned isMatched).1
    have isNumber := (isEntry.number layout).2
    rw [← isPlace, Nat.add_sub_cancel' below] at isNumber
    rw [isNumber] at added
    exact (Finset.mem_sort _).mpr added

end Starkstream
