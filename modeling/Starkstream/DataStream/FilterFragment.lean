import Starkstream.DataStream.FragmentAccess
import Starkstream.DataStream.SegmentStream
import Starkstream.Lib.Grouping

/-! # Filtering a block

`filter_fragment` evaluates the filters of a client on one block: first the
filters on each fragment, then the joins of what they matched, and last it reads
the bodies of all that is sent.  What is sent for a filter is the header and the
matched rows, each with the ids of the filters that asked for it.  The ids of a
row are a set: the order in which they are written is not determined by the
source.  A block is written as no bytes exactly when there is nothing to send.
-/

namespace Starkstream.Fragments

open Query

/-- The matched rows of a fragment, each with the ids of the filters. -/
abbrev FilterMatch := Std.ExtTreeMap Nat (Finset FilterId)

namespace FilterMatch

def addSingleMatch (filterMatch : FilterMatch) (filterId : FilterId) (index : Nat) : FilterMatch :=
  filterMatch.alter index fun filterIds => some (insert filterId (filterIds.getD ∅))

def addMatch (filterMatch : FilterMatch) (filterId : FilterId) (bitmap : Bitmap) : FilterMatch :=
  (bitmap.sort (· ≤ ·)).foldl (fun filterMatch index => addSingleMatch filterMatch filterId index) filterMatch

end FilterMatch

/-- Rows to be joined, by source and target fragment. -/
abbrev JoinMatches :=
  Std.ExtTreeMap (FragmentId × FragmentId) FilterMatch (compareLex (compareOn Prod.fst) (compareOn Prod.snd))

/-- What has been matched so far by one block filter. -/
structure Matching where
  fragmentMatches : Std.ExtTreeMap FragmentId FilterMatch
  joins : JoinMatches

/-- Evaluate one filter on the indexes of its fragment. -/
def matchFilter (fragmentId : FragmentId) (indexes : IndexFragment) (state : FilterMatch × JoinMatches)
    (filter : Filter) : Outcome DataStreamError (FilterMatch × JoinMatches) := do
  let rows ← (filter.filter indexes).changeContext ⟨⟩ []
  let filterMatch := state.1.addMatch filter.filterId rows
  if rows = ∅ then return (filterMatch, state.2)
  else
    return (filterMatch, filter.joins.foldl (fun joins joinWithFragmentId =>
      joins.alter (fragmentId, joinWithFragmentId) fun joined =>
        some (FilterMatch.addMatch (joined.getD ∅) filter.filterId rows)) state.2)

def matchFragment (access : FragmentAccess) (matching : Matching) (entry : FragmentId × List Filter) :
    Outcome DataStreamError Matching := do
  let indexes ← (access.getIndexFragment entry.1).changeContext ⟨⟩ ["failed to get fragment indexes"]
  let (filterMatch, joins) ← entry.2.foldlM (matchFilter entry.1 indexes) (∅, matching.joins)
  if filterMatch.isEmpty then return { matching with joins }
  else return ⟨matching.fragmentMatches.insert entry.1 filterMatch, joins⟩

/-- Add the rows that the matched rows are joined to. -/
def joinMatches (index : JoinTo) (filterMatch targetMatches : FilterMatch) : FilterMatch :=
  match index with
  | .one inner =>
    filterMatch.toList.foldl (fun targetMatches match_ =>
      match JoinToOneIndex.get inner match_.1 with
      | some index =>
        (match_.2.sort (· ≤ ·)).foldl (fun targetMatches filterId =>
          FilterMatch.addSingleMatch targetMatches filterId index) targetMatches
      | none => targetMatches) targetMatches
  | .many inner =>
    filterMatch.toList.foldl (fun targetMatches match_ =>
      match JoinToManyIndex.get inner match_.1 with
      | some bitmap =>
        (match_.2.sort (· ≤ ·)).foldl (fun targetMatches filterId =>
          FilterMatch.addMatch targetMatches filterId bitmap) targetMatches
      | none => targetMatches) targetMatches

/-- Join what was matched in one fragment with one of the other fragments. -/
def joinFragment (access : FragmentAccess) (fragmentMatches : Std.ExtTreeMap FragmentId FilterMatch)
    (entry : (FragmentId × FragmentId) × FilterMatch) :
    Outcome DataStreamError (Std.ExtTreeMap FragmentId FilterMatch) := do
  let (sourceFragmentId, targetFragmentId) := entry.1
  let joinFragment ← (access.getJoinFragment sourceFragmentId).changeContext ⟨⟩ ["failed to get join fragment"]
  match joinFragment.joins.find? (·.toFragmentId == targetFragmentId) with
  | some join =>
    return fragmentMatches.alter targetFragmentId fun targetMatches =>
      some (joinMatches join.index entry.2 (targetMatches.getD ∅))
  | none =>
    Outcome.fail ⟨⟩ ["join fragment not found", "source fragment id: " ++ toString sourceFragmentId.toNat,
      "target fragment id: " ++ toString targetFragmentId.toNat]

def shouldSendHeader (headerFilter : HeaderFilter) (isLive : Bool)
    (fragmentMatches : Std.ExtTreeMap FragmentId FilterMatch) : Bool :=
  match headerFilter with
  | .always => true
  | .onData => !fragmentMatches.isEmpty
  | .onDataOrOnNewBlock => !fragmentMatches.isEmpty || isLive

def readHeader (access : FragmentAccess) (sent : Bool) : Outcome DataStreamError (Option HeaderFragment) :=
  if sent then do
    let header ← access.getHeaderFragment.changeContext ⟨⟩ ["failed to get header fragment"]
    return some header
  else .ok none

/-- A fragment with matches, and its body. -/
structure MatchedFragment where
  fragmentId : FragmentId
  body : BodyFragment
  filterMatch : FilterMatch

def readBody (access : FragmentAccess) (names : FragmentNames) (entry : FragmentId × FilterMatch) :
    Outcome DataStreamError MatchedFragment :=
  match names[entry.1]? with
  | none => Outcome.fail ⟨⟩ ["unknown fragment id", "fragment id: " ++ toString entry.1.toNat]
  | some _ => do
      let body ← (access.getBodyFragment entry.1).changeContext ⟨⟩ ["failed to get body fragment"]
      return ⟨entry.1, body, entry.2⟩

/-- A row that is sent. -/
structure MatchedItem where
  fragmentId : FragmentId
  filterIds : Finset FilterId
  message : SerializedProto
  deriving DecidableEq

/-- Rows that are not in the body are out of the bounds of a slice. -/
def MatchedFragment.items (fragment : MatchedFragment) : Outcome DataStreamError (List MatchedItem) :=
  fragment.filterMatch.toList.mapM fun match_ =>
    match fragment.body.data[match_.1]? with
    | some message => .ok ⟨fragment.fragmentId, match_.2, message⟩
    | none => .error .panic

/-- What is sent of a block for one block filter. -/
structure FilteredBlock where
  header : Option SerializedProto
  items : List MatchedItem
  deriving DecidableEq

def FilteredBlock.isEmpty (block : FilteredBlock) : Bool := block.header.isNone && block.items.isEmpty

def filterBlock (access : FragmentAccess) (names : FragmentNames) (isLive : Bool) (blockFilter : Query.BlockFilter) :
    Outcome DataStreamError FilteredBlock := do
  let matching ← blockFilter.iter.foldlM (matchFragment access) ⟨∅, ∅⟩
  let fragmentMatches ← matching.joins.toList.foldlM (joinFragment access) matching.fragmentMatches
  let header ← readHeader access (shouldSendHeader blockFilter.headerFilter isLive fragmentMatches)
  let matchedFragments ← fragmentMatches.toList.mapM (readBody access names)
  let items ← matchedFragments.mapM MatchedFragment.items
  return ⟨header.map (·.data), items.flatten⟩

/-- Whether a block has data for a filter other than the header. -/
def blockMatches (access : FragmentAccess) (names : FragmentNames) (blockFilter : Query.BlockFilter) :
    Outcome DataStreamError Bool := do
  let matching ← blockFilter.iter.foldlM (matchFragment access) ⟨∅, ∅⟩
  let fragmentMatches ← matching.joins.toList.foldlM (joinFragment access) matching.fragmentMatches
  let matchedFragments ← fragmentMatches.toList.mapM (readBody access names)
  let _ ← matchedFragments.mapM MatchedFragment.items
  return !fragmentMatches.isEmpty

/-- One turn of the loop over the block filters; the flag says whether there is data. -/
def filterNext (access : FragmentAccess) (names : FragmentNames) (isLive : Bool)
    (state : Bool × List FilteredBlock) (blockFilter : Query.BlockFilter) :
    Outcome DataStreamError (Bool × List FilteredBlock) := do
  let block ← filterBlock access names isLive blockFilter
  return (state.1 || !block.isEmpty, state.2 ++ [block])

def filterFragment (access : FragmentAccess) (names : FragmentNames) (isLive : Bool)
    (blockFilters : List Query.BlockFilter) : Outcome DataStreamError (Bool × List FilteredBlock) :=
  blockFilters.foldlM (filterNext access names isLive) (false, [])

section Keys

variable {access : FragmentAccess} {blockFilter : Query.BlockFilter}

def Matched (access : FragmentAccess) (blockFilter : Query.BlockFilter) (fragmentId : FragmentId) (filter : Filter) :
    Prop :=
  ∃ filters indexes rows, (fragmentId, filters) ∈ blockFilter.iter ∧ filter ∈ filters ∧
    access.getIndexFragment fragmentId = .ok indexes ∧ filter.filter indexes = .ok rows ∧ rows ≠ ∅

/-- The bodies that are read: those of filters that match, and those they are joined with. -/
def NeedsBody (access : FragmentAccess) (blockFilter : Query.BlockFilter) (fragmentId : FragmentId) : Prop :=
  ∃ source filter, Matched access blockFilter source filter ∧ (fragmentId = source ∨ fragmentId ∈ filter.joins)

/-- Only filters that match a row leave a trace. -/
structure Matching.Sound (access : FragmentAccess) (blockFilter : Query.BlockFilter) (matching : Matching) :
    Prop where
  fragmentMatches : ∀ fragmentId ∈ matching.fragmentMatches, ∃ filter, Matched access blockFilter fragmentId filter
  joins : ∀ pair ∈ matching.joins, ∃ filter, Matched access blockFilter pair.1 filter ∧ pair.2 ∈ filter.joins

theorem FilterMatch.addMatch_empty (filterMatch : FilterMatch) (filterId : FilterId) :
    filterMatch.addMatch filterId ∅ = filterMatch := by
  simp [addMatch]

theorem JoinMatches.mem_alter {joins : JoinMatches} {key pair change} (member : pair ∈ joins.alter key change) :
    pair ∈ joins ∨ pair = key := by
  rw [Std.ExtTreeMap.mem_alter] at member
  split at member
  next same =>
      obtain ⟨sameFirst, sameSecond⟩ := Ordering.then_eq_eq.mp same
      refine .inr (Prod.ext ?_ ?_)
      · exact (Std.LawfulEqOrd.eq_of_compare sameFirst).symm
      · exact (Std.LawfulEqOrd.eq_of_compare sameSecond).symm
  next => exact .inl member

variable {fragmentId : FragmentId}

theorem JoinMatches.mem_of_mem_foldl_alter {change} (targets : List FragmentId) (joins : JoinMatches) {pair}
    (member : pair ∈ targets.foldl (fun joins target => joins.alter (fragmentId, target) change) joins) :
    pair ∈ joins ∨ (pair.1 = fragmentId ∧ pair.2 ∈ targets) := by
  induction targets generalizing joins with
  | nil => exact .inl member
  | cons target rest ih =>
    rcases ih _ member with before | ⟨source, later⟩
    · rcases JoinMatches.mem_alter before with old | rfl
      · exact .inl old
      · exact .inr ⟨rfl, List.mem_cons_self ..⟩
    · exact .inr ⟨source, List.mem_cons_of_mem _ later⟩

theorem matchFilter_cases {indexes state after filter}
    (matched : matchFilter fragmentId indexes state filter = .ok after) :
    ∃ rows, filter.filter indexes = .ok rows ∧
      (rows = ∅ ∧ after = state ∨
        rows ≠ ∅ ∧ ∀ pair ∈ after.2, pair ∈ state.2 ∨ (pair.1 = fragmentId ∧ pair.2 ∈ filter.joins)) := by
  obtain ⟨rows, filtered, result⟩ := bind_eq_ok.mp matched
  refine ⟨rows, Outcome.changeContext_eq_ok.mp filtered, ?_⟩
  by_cases none : rows = ∅
  · subst none
    refine .inl ⟨rfl, ?_⟩
    rw [if_pos rfl, FilterMatch.addMatch_empty] at result
    exact (Except.ok.inj result).symm
  · refine .inr ⟨none, ?_⟩
    rw [if_neg none] at result
    cases result
    exact fun pair member => JoinMatches.mem_of_mem_foldl_alter filter.joins state.2 member

theorem foldlM_matchFilter {filters indexes} (inFilter : (fragmentId, filters) ∈ blockFilter.iter)
    (indexed : access.getIndexFragment fragmentId = .ok indexes) {joins}
    (sound : ∀ pair ∈ joins, ∃ filter, Matched access blockFilter pair.1 filter ∧
      pair.2 ∈ filter.joins) {after} (matched : filters.foldlM (matchFilter fragmentId indexes) (∅, joins) = .ok after) :
    (after.1.isEmpty = false → ∃ filter, Matched access blockFilter fragmentId filter) ∧
      ∀ pair ∈ after.2, ∃ filter, Matched access blockFilter pair.1 filter ∧ pair.2 ∈ filter.joins := by
  refine foldlM_keeps (fun state : FilterMatch × JoinMatches =>
    (state.1.isEmpty = false → ∃ filter, Matched access blockFilter fragmentId filter) ∧
      ∀ pair ∈ state.2, ∃ filter, Matched access blockFilter pair.1 filter ∧ pair.2 ∈ filter.joins)
    ?_ ⟨by simp, sound⟩ matched
  intro before filter after member holds one
  obtain ⟨rows, filtered, ⟨_, rfl⟩ | ⟨some, keys⟩⟩ := matchFilter_cases one
  · exact holds
  · have isMatched : Matched access blockFilter fragmentId filter :=
      ⟨filters, indexes, rows, inFilter, member, indexed, filtered, some⟩
    refine ⟨fun _ => ⟨filter, isMatched⟩, fun pair inside => ?_⟩
    rcases keys pair inside with old | ⟨rfl, target⟩
    · exact holds.2 pair old
    · exact ⟨filter, isMatched, target⟩

variable {matching : Matching}

theorem Matching.Sound.matchFragment {after} (sound : matching.Sound access blockFilter) {entry}
    (inFilter : entry ∈ blockFilter.iter) (matched : Fragments.matchFragment access matching entry = .ok after) :
    after.Sound access blockFilter := by
  obtain ⟨_, indexed, rest⟩ := bind_eq_ok.mp matched
  obtain ⟨⟨filterMatch, joins⟩, folded, result⟩ := bind_eq_ok.mp rest
  obtain ⟨matches_, joinsSound⟩ :=
    foldlM_matchFilter inFilter (Outcome.changeContext_eq_ok.mp indexed) sound.joins folded
  cases isEmpty : filterMatch.isEmpty with
  | true =>
    simp only [isEmpty] at result
    cases result
    exact ⟨sound.fragmentMatches, joinsSound⟩
  | false =>
    simp only [isEmpty] at result
    cases result
    refine ⟨fun fragmentId member => ?_, joinsSound⟩
    rcases Std.ExtTreeMap.mem_insert.mp member with same | old
    · rw [← Std.LawfulEqOrd.eq_of_compare same]
      exact matches_ isEmpty
    · exact sound.fragmentMatches fragmentId old

theorem joinFragment_keys {fragmentMatches after entry} (joined : joinFragment access fragmentMatches entry = .ok after)
    (member : fragmentId ∈ after) : fragmentId ∈ fragmentMatches ∨ fragmentId = entry.1.2 := by
  obtain ⟨_, _, result⟩ := bind_eq_ok.mp joined
  split at result
  next =>
      cases result
      rw [Std.ExtTreeMap.mem_alter] at member
      split at member
      next same => exact .inr (Std.LawfulEqOrd.eq_of_compare same).symm
      next => exact .inl member
  next => cases result

theorem sound_of_matched {entries : List (FragmentId × List Filter)}
    (inFilter : ∀ entry ∈ entries, entry ∈ blockFilter.iter) {after} (sound : matching.Sound access blockFilter)
    (matched : entries.foldlM (matchFragment access) matching = .ok after) : after.Sound access blockFilter :=
  foldlM_keeps (Matching.Sound access blockFilter)
    (fun _ entry _ member sound one => sound.matchFragment (inFilter entry member) one) sound matched

/-- After some of the joins every key is due to a filter that matches. -/
def Due (access : FragmentAccess) (blockFilter : Query.BlockFilter)
    (fragmentMatches : Std.ExtTreeMap FragmentId FilterMatch) : Prop :=
  ∀ fragmentId ∈ fragmentMatches, NeedsBody access blockFilter fragmentId

section
variable (sound : matching.Sound access blockFilter)
include sound

theorem Matching.Sound.due : Due access blockFilter matching.fragmentMatches := by
  intro fragmentId member
  obtain ⟨filter, isMatched⟩ := sound.fragmentMatches fragmentId member
  exact ⟨fragmentId, filter, isMatched, .inl rfl⟩

theorem Due.joinFragment {before after} (due : Due access blockFilter before) {entry}
    (listed : entry ∈ matching.joins.toList) (joined : Fragments.joinFragment access before entry = .ok after) :
    Due access blockFilter after := by
  intro fragmentId member
  rcases joinFragment_keys joined member with old | rfl
  · exact due fragmentId old
  · obtain ⟨filter, isMatched, target⟩ := sound.joins entry.1 (Grouping.mem_of_mem_toList listed)
    exact ⟨entry.1.1, filter, isMatched, .inr target⟩

theorem due_of_joined {fragmentMatches}
    (joined : matching.joins.toList.foldlM (joinFragment access) matching.fragmentMatches = .ok fragmentMatches) :
    Due access blockFilter fragmentMatches :=
  foldlM_keeps (Due access blockFilter) (fun _ _ _ listed due one => due.joinFragment sound listed one) sound.due joined

end

/-- Two accesses that agree on what a block filter reads give the same result. -/
theorem filterBlock_same {other : FragmentAccess}
    (index : ∀ entry ∈ blockFilter.iter,
      Outcome.Same (access.getIndexFragment entry.1) (other.getIndexFragment entry.1))
    (join : ∀ source filter, Matched access blockFilter source filter →
      Outcome.Same (access.getJoinFragment source) (other.getJoinFragment source))
    (header : Outcome.Same access.getHeaderFragment other.getHeaderFragment)
    (body : ∀ fragmentId, NeedsBody access blockFilter fragmentId →
      Outcome.Same (access.getBodyFragment fragmentId) (other.getBodyFragment fragmentId))
    (names : FragmentNames) (isLive : Bool) :
    Outcome.Same (filterBlock access names isLive blockFilter) (filterBlock other names isLive blockFilter) := by
  have start : Matching.Sound access blockFilter ⟨∅, ∅⟩ := ⟨by simp, by simp⟩
  refine Outcome.Same.bind (Outcome.Same.foldlM (Matching.Sound access blockFilter)
    (fun _ entry _ member sound one => sound.matchFragment member one) ?_ start) ?_
  · intro before entry member _
    exact Outcome.Same.bind ((index entry member).changeContext _ _ _) fun indexes _ => .refl _
  · intro matching matched
    have sound := sound_of_matched (fun _ => id) start matched
    refine Outcome.Same.bind (Outcome.Same.foldlM (Due access blockFilter)
      (fun _ entry _ listed due one => due.joinFragment sound listed one) ?_ sound.due) ?_
    · intro before entry listed _
      obtain ⟨filter, isMatched, _⟩ := sound.joins entry.1 (Grouping.mem_of_mem_toList listed)
      exact Outcome.Same.bind ((join _ filter isMatched).changeContext _ _ _) fun table _ => .refl _
    · intro fragmentMatches joined
      have due := due_of_joined sound joined
      refine Outcome.Same.bind ?_ fun sent _ => ?_
      · simp only [readHeader]
        split
        next => exact Outcome.Same.bind (header.changeContext _ _ _) fun _ _ => .refl _
        next => exact .refl _
      · refine Outcome.Same.bind (Outcome.Same.mapM fun entry listed => ?_) fun fragments _ => .refl _
        simp only [readBody]
        split
        next => exact .refl _
        next =>
            have needed := due entry.1 (Grouping.mem_of_mem_toList listed)
            exact Outcome.Same.bind ((body entry.1 needed).changeContext _ _ _) fun _ _ => .refl _

theorem filterFragment_same {other blockFilters} (each : ∀ blockFilter ∈ blockFilters, ∀ names isLive,
      Outcome.Same (filterBlock access names isLive blockFilter) (filterBlock other names isLive blockFilter))
    (names : FragmentNames) (isLive : Bool) :
    Outcome.Same (filterFragment access names isLive blockFilters)
      (filterFragment other names isLive blockFilters) :=
  Outcome.Same.foldlM (fun _ => True) (fun _ _ _ _ _ _ => trivial)
    (fun _ blockFilter member _ =>
      Outcome.Same.bind (each blockFilter member names isLive) fun _ _ => .refl _) trivial

theorem Matched.mem_allFragmentIds {source filter} (isMatched : Matched access blockFilter source filter) :
    source ∈ blockFilter.allFragmentIds ∧ ∀ target ∈ filter.joins, target ∈ blockFilter.allFragmentIds := by
  obtain ⟨_, _, _, inFilter, member, _⟩ := isMatched
  refine ⟨List.mem_flatMap.mpr ⟨_, inFilter, List.mem_cons_self ..⟩, fun target joined => ?_⟩
  exact List.mem_flatMap.mpr ⟨_, inFilter, List.mem_cons_of_mem _ (List.mem_flatMap.mpr ⟨filter, member, joined⟩)⟩

theorem NeedsBody.mem_allFragmentIds (needed : NeedsBody access blockFilter fragmentId) :
    fragmentId ∈ blockFilter.allFragmentIds := by
  obtain ⟨_, _, isMatched, rfl | target⟩ := needed
  · exact isMatched.mem_allFragmentIds.1
  · exact isMatched.mem_allFragmentIds.2 fragmentId target

end Keys

/-- Two ways to read a block that end alike, where a body is not read under a reserved id. -/
structure FragmentAccess.Agree (access other : FragmentAccess) : Prop where
  index : ∀ fragmentId, Outcome.Same (access.getIndexFragment fragmentId) (other.getIndexFragment fragmentId)
  join : ∀ fragmentId, Outcome.Same (access.getJoinFragment fragmentId) (other.getJoinFragment fragmentId)
  header : Outcome.Same access.getHeaderFragment other.getHeaderFragment
  body : ∀ fragmentId, fragmentId ∉ reservedFragmentIds →
    Outcome.Same (access.getBodyFragment fragmentId) (other.getBodyFragment fragmentId)

/-- Filters that name no reserved fragment do not tell them apart. -/
theorem FragmentAccess.Agree.filterFragment {access other : FragmentAccess} (agree : access.Agree other) {blockFilters}
    (unreserved : ∀ blockFilter ∈ blockFilters, ∀ fragmentId ∈ blockFilter.allFragmentIds,
      fragmentId ∉ reservedFragmentIds) (names : FragmentNames) (isLive : Bool) :
    Outcome.Same (Fragments.filterFragment access names isLive blockFilters)
      (Fragments.filterFragment other names isLive blockFilters) := by
  refine filterFragment_same (fun blockFilter member names isLive => ?_) names isLive
  refine filterBlock_same (fun entry _ => agree.index entry.1) (fun source _ _ => agree.join source) agree.header
    (fun fragmentId needed => agree.body fragmentId ?_) names isLive
  exact unreserved blockFilter member fragmentId needed.mem_allFragmentIds

end Starkstream.Fragments
