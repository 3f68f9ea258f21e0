import Starkstream.DataStream.FilterFragment

/-! # What a client is sent of a block

The maps that `filter_fragment` builds are read here as relations: which filter
ids stand at which row.  Every step adds pairs of a row and an id, so that a loop
holds at its end exactly what its turns have added.  The result is compared with
what the filters of the client ask for: the rows that a filter matches, and the
rows that these are joined to.
-/

namespace Starkstream

/-- The row of the source is joined to the row of the target. -/
def JoinTo.Maps : JoinTo → Nat → Nat → Prop
  | .one inner, source, target => JoinToOneIndex.get inner source = some target
  | .many inner, source, target => ∃ rows, JoinToManyIndex.get inner source = some rows ∧ target ∈ rows

end Starkstream

namespace Starkstream.Fragments

open Query

variable {filterMatch : FilterMatch} {filterId : FilterId} {row : Nat}

namespace FilterMatch

def Has (filterMatch : FilterMatch) (row : Nat) (filterId : FilterId) : Prop :=
  ∃ filterIds, filterMatch[row]? = some filterIds ∧ filterId ∈ filterIds

def Proper (filterMatch : FilterMatch) : Prop := ∀ row ∈ filterMatch, ∃ filterId, filterMatch.Has row filterId

theorem not_has_empty : ¬Has ∅ row filterId := by simp [Has]

theorem proper_empty : Proper ∅ := by simp [Proper]

theorem mem_toList {filterIds} : (row, filterIds) ∈ filterMatch.toList ↔ filterMatch[row]? = some filterIds :=
  Std.ExtTreeMap.mem_toList_iff_getElem?_eq_some

section
variable {index : Nat} {added : FilterId} {bitmap : Bitmap}

theorem has_foldl {α : Type} (Pairs : α → Nat → FilterId → Prop) {step} (turn : ∀ filterMatch item row filterId,
      (step filterMatch item).Has row filterId ↔ filterMatch.Has row filterId ∨ Pairs item row filterId)
    (items : List α) (filterMatch : FilterMatch) :
    (items.foldl step filterMatch).Has row filterId ↔
      filterMatch.Has row filterId ∨ ∃ item ∈ items, Pairs item row filterId := by
  induction items generalizing filterMatch with
  | nil => simp
  | cons item rest ih => rw [List.foldl_cons, ih, turn, List.exists_mem_cons_iff, or_assoc]

theorem proper_foldl {α : Type} {step} (turn : ∀ filterMatch item, Proper filterMatch → Proper (step filterMatch item))
    (items : List α) (proper : filterMatch.Proper) : (items.foldl step filterMatch).Proper := by
  induction items generalizing filterMatch with
  | nil => exact proper
  | cons item rest ih => exact ih (turn filterMatch item proper)

theorem has_addSingleMatch : (addSingleMatch filterMatch added index).Has row filterId ↔
    filterMatch.Has row filterId ∨ (row = index ∧ filterId = added) := by
  simp only [Has, addSingleMatch, Std.ExtTreeMap.getElem?_alter]
  by_cases same : index = row
  · subst same
    cases found : filterMatch[index]? <;> simp [or_comm]
  · simp [same, Ne.symm same]

theorem proper_addSingleMatch (proper : filterMatch.Proper) : (addSingleMatch filterMatch added index).Proper := by
  intro row member
  by_cases same : index = row
  · exact ⟨added, has_addSingleMatch.mpr (.inr ⟨same.symm, rfl⟩)⟩
  · have before : row ∈ filterMatch := by simpa [addSingleMatch, Std.ExtTreeMap.mem_alter, same] using member
    obtain ⟨filterId, has⟩ := proper row before
    exact ⟨filterId, has_addSingleMatch.mpr (.inl has)⟩

theorem has_addMatch : (addMatch filterMatch added bitmap).Has row filterId ↔
    filterMatch.Has row filterId ∨ (row ∈ bitmap ∧ filterId = added) := by
  rw [addMatch, has_foldl (fun index row filterId => row = index ∧ filterId = added) fun _ _ _ _ => has_addSingleMatch]
  simp [Finset.mem_sort]

theorem proper_addMatch (proper : filterMatch.Proper) : (addMatch filterMatch added bitmap).Proper :=
  proper_foldl (fun _ _ => proper_addSingleMatch) _ proper

theorem isEmpty_iff (proper : filterMatch.Proper) :
    filterMatch.isEmpty = true ↔ ∀ row filterId, ¬filterMatch.Has row filterId := by
  rw [Std.ExtTreeMap.isEmpty_iff, Std.ExtTreeMap.eq_empty_iff_forall_not_mem]
  constructor
  · rintro none row filterId ⟨_, found, _⟩
    exact none row (Std.ExtTreeMap.mem_iff_isSome_getElem?.mpr (by rw [found]; rfl))
  · intro none row member
    obtain ⟨filterId, has⟩ := proper row member
    exact none row filterId has

end

end FilterMatch

theorem has_joinMatches {index targetMatches} :
    (joinMatches index filterMatch targetMatches).Has row filterId ↔
      targetMatches.Has row filterId ∨ ∃ source, filterMatch.Has source filterId ∧ index.Maps source row := by
  have listed : (∃ match_ ∈ filterMatch.toList, index.Maps match_.1 row ∧ filterId ∈ match_.2) ↔
      ∃ source, filterMatch.Has source filterId ∧ index.Maps source row := by
    constructor
    · rintro ⟨⟨source, filterIds⟩, member, isJoined, inside⟩
      exact ⟨source, ⟨filterIds, FilterMatch.mem_toList.mp member, inside⟩, isJoined⟩
    · rintro ⟨source, ⟨filterIds, found, inside⟩, isJoined⟩
      exact ⟨(source, filterIds), FilterMatch.mem_toList.mpr found, isJoined, inside⟩
  cases index with
  | one inner =>
    rw [joinMatches, FilterMatch.has_foldl fun match_ row filterId =>
      (JoinTo.one inner).Maps match_.1 row ∧ filterId ∈ match_.2]
    · exact or_congr_right listed
    · intro targetMatches match_ row filterId
      simp only [JoinTo.Maps]
      cases JoinToOneIndex.get inner match_.1 with
      | none => simp
      | some index =>
        simp only [FilterMatch.has_foldl (fun added row filterId => row = index ∧ filterId = added)
          fun _ _ _ _ => FilterMatch.has_addSingleMatch, Finset.mem_sort]
        grind
  | many inner =>
    rw [joinMatches, FilterMatch.has_foldl fun match_ row filterId =>
      (JoinTo.many inner).Maps match_.1 row ∧ filterId ∈ match_.2]
    · exact or_congr_right listed
    · intro targetMatches match_ row filterId
      simp only [JoinTo.Maps]
      cases JoinToManyIndex.get inner match_.1 with
      | none => simp
      | some bitmap =>
        simp only [FilterMatch.has_foldl (fun added row filterId => row ∈ bitmap ∧ filterId = added)
          fun _ _ _ _ => FilterMatch.has_addMatch, Finset.mem_sort]
        grind

theorem proper_joinMatches {index} {targetMatches : FilterMatch} (proper : targetMatches.Proper) :
    (joinMatches index filterMatch targetMatches).Proper := by
  cases index with
  | one =>
    refine FilterMatch.proper_foldl (fun targetMatches match_ proper => ?_) _ proper
    split
    next => exact FilterMatch.proper_foldl (fun _ _ => FilterMatch.proper_addSingleMatch) _ proper
    next => exact proper
  | many =>
    refine FilterMatch.proper_foldl (fun targetMatches match_ proper => ?_) _ proper
    split
    next => exact FilterMatch.proper_foldl (fun _ _ => FilterMatch.proper_addMatch) _ proper
    next => exact proper

/-- The join table of the source fragment to the target fragment joins the rows. -/
def Joined (access : FragmentAccess) (source target : FragmentId) (sourceRow targetRow : Nat) : Prop :=
  ∃ fragment join, access.getJoinFragment source = .ok fragment ∧
    fragment.joins.find? (·.toFragmentId == target) = some join ∧ join.index.Maps sourceRow targetRow

/-- Two pairs of fragments compare equal when they are equal. -/
instance : Std.LawfulEqCmp (compareLex (compareOn Prod.fst) (compareOn Prod.snd) :
    FragmentId × FragmentId → FragmentId × FragmentId → Ordering) where
  eq_of_compare {left right} same := by
    obtain ⟨sameFirst, sameSecond⟩ := Ordering.then_eq_eq.mp same
    exact Prod.ext (Std.LawfulEqOrd.eq_of_compare sameFirst) (Std.LawfulEqOrd.eq_of_compare sameSecond)

/-- Under the key there is a match of the row by a filter with the id. -/
def MapHas {κ : Type} {cmp : κ → κ → Ordering} [Std.TransCmp cmp] (map : Std.ExtTreeMap κ FilterMatch cmp) (key : κ) (row : Nat)
    (filterId : FilterId) : Prop :=
  ∃ filterMatch, map[key]? = some filterMatch ∧ filterMatch.Has row filterId

theorem mapHas_alter {κ : Type} {cmp} [Std.TransCmp cmp] [Std.LawfulEqCmp cmp] {map : Std.ExtTreeMap κ FilterMatch cmp}
    (change : FilterMatch → FilterMatch) {Pair : Prop}
    (adds : ∀ filterMatch, (change filterMatch).Has row filterId ↔ filterMatch.Has row filterId ∨ Pair) (key other : κ) :
    MapHas (map.alter key fun existing => some (change (existing.getD ∅))) other row filterId ↔
      MapHas map other row filterId ∨ (key = other ∧ Pair) := by
  simp only [MapHas, Std.ExtTreeMap.getElem?_alter]
  by_cases same : key = other
  · subst same
    rw [if_pos Std.ReflCmp.compare_self]
    cases found : map[key]? with
    | none => simp [adds, FilterMatch.not_has_empty]
    | some => simp [adds]
  · rw [if_neg fun equal => same (Std.LawfulEqCmp.eq_of_compare equal)]
    simp [same]

def AllProper (fragmentMatches : Std.ExtTreeMap FragmentId FilterMatch) : Prop :=
  ∀ (fragmentId : FragmentId) (filterMatch : FilterMatch), fragmentMatches[fragmentId]? = some filterMatch →
    filterMatch.Proper

variable {fragmentMatches : Std.ExtTreeMap FragmentId FilterMatch}

section Loops

variable {fragmentId : FragmentId} {indexes : IndexFragment} {state after : FilterMatch × JoinMatches} {filter : Filter}

/-- The row is one of those that the filter selects. -/
def Selects (indexes : IndexFragment) (filter : Filter) (row : Nat) : Prop :=
  ∃ rows, filter.filter indexes = .ok rows ∧ row ∈ rows

section
variable (matched : matchFilter fragmentId indexes state filter = .ok after)
include matched

theorem matchFilter_eq :
    ∃ rows, filter.filter indexes = .ok rows ∧ after = (state.1.addMatch filter.filterId rows,
      if rows = ∅ then state.2 else filter.joins.foldl (fun joins joinWithFragmentId =>
        joins.alter (fragmentId, joinWithFragmentId) fun joined =>
          some (FilterMatch.addMatch (joined.getD ∅) filter.filterId rows)) state.2) := by
  obtain ⟨rows, filtered, result⟩ := bind_eq_ok.mp matched
  refine ⟨rows, Outcome.changeContext_eq_ok.mp filtered, ?_⟩
  by_cases empty : rows = ∅
  · rw [if_pos empty] at result ⊢
    exact (Except.ok.inj result).symm
  · rw [if_neg empty] at result ⊢
    exact (Except.ok.inj result).symm

theorem matchFilter_has (row : Nat) (filterId : FilterId) :
    after.1.Has row filterId ↔ state.1.Has row filterId ∨ (Selects indexes filter row ∧ filterId = filter.filterId) := by
  obtain ⟨_, filtered, rfl⟩ := matchFilter_eq matched
  rw [FilterMatch.has_addMatch, Selects, filtered]
  simp

theorem matchFilter_joins (pair : FragmentId × FragmentId) (row : Nat) (filterId : FilterId) :
    MapHas after.2 pair row filterId ↔ MapHas state.2 pair row filterId ∨
      (pair.1 = fragmentId ∧ pair.2 ∈ filter.joins ∧ Selects indexes filter row ∧ filterId = filter.filterId) := by
  obtain ⟨rows, filtered, rfl⟩ := matchFilter_eq matched
  have selects : Selects indexes filter row ↔ row ∈ rows := by simp [Selects, filtered]
  have loop : ∀ (targets : List FragmentId) (joins : JoinMatches),
      MapHas (targets.foldl (fun joins joinWithFragmentId =>
        joins.alter (fragmentId, joinWithFragmentId) fun joined =>
          some (FilterMatch.addMatch (joined.getD ∅) filter.filterId rows)) joins) pair row filterId ↔
        MapHas joins pair row filterId ∨
          (pair.1 = fragmentId ∧ pair.2 ∈ targets ∧ row ∈ rows ∧ filterId = filter.filterId) := by
    intro targets
    induction targets with
    | nil => simp
    | cons target rest ih =>
      intro joins
      rw [List.foldl_cons, ih, mapHas_alter (fun joined => joined.addMatch filter.filterId rows)
        fun filterMatch => FilterMatch.has_addMatch]
      grind
  rw [selects]
  by_cases empty : rows = ∅
  · simp [empty]
  · simp only [if_neg empty]
    exact loop filter.joins state.2

theorem matchFilter_proper (proper : state.1.Proper) : after.1.Proper := by
  obtain ⟨-, _, rfl⟩ := matchFilter_eq matched
  exact FilterMatch.proper_addMatch proper

end

/-- The filter is one of the entry's, and it selects the row. -/
def EntrySelects (access : FragmentAccess) (entry : FragmentId × List Filter) (filter : Filter) (row : Nat) : Prop :=
  filter ∈ entry.2 ∧ ∃ indexes, access.getIndexFragment entry.1 = .ok indexes ∧ Selects indexes filter row

variable {access : FragmentAccess} {matching next : Matching} {entry : FragmentId × List Filter}

section
variable (matched : matchFragment access matching entry = .ok next)
include matched

theorem matchFragment_eq :
    ∃ indexes filterMatch, access.getIndexFragment entry.1 = .ok indexes ∧
      entry.2.foldlM (matchFilter entry.1 indexes) (∅, matching.joins) = .ok (filterMatch, next.joins) ∧
      next.fragmentMatches = if filterMatch.isEmpty then matching.fragmentMatches
        else matching.fragmentMatches.insert entry.1 filterMatch := by
  obtain ⟨indexes, indexed, rest⟩ := bind_eq_ok.mp matched
  obtain ⟨⟨filterMatch, _⟩, folded, result⟩ := bind_eq_ok.mp rest
  refine ⟨indexes, filterMatch, Outcome.changeContext_eq_ok.mp indexed, ?_⟩
  cases empty : filterMatch.isEmpty with
  | true | false =>
    simp only [empty] at result
    cases result
    exact ⟨folded, by simp⟩

theorem matchFragment_joins (value : (FragmentId × FragmentId) × Nat × FilterId) :
    MapHas next.joins value.1 value.2.1 value.2.2 ↔ MapHas matching.joins value.1 value.2.1 value.2.2 ∨
      ∃ filter, EntrySelects access entry filter value.2.1 ∧ value.1.1 = entry.1 ∧ value.1.2 ∈ filter.joins ∧
        value.2.2 = filter.filterId := by
  obtain ⟨indexes, _, indexed, folded, _⟩ := matchFragment_eq matched
  have loop := foldlM_accumulates
    (fun (state : FilterMatch × JoinMatches) (value : (FragmentId × FragmentId) × Nat × FilterId) =>
      MapHas state.2 value.1 value.2.1 value.2.2)
    (fun filter value => value.1.1 = entry.1 ∧ value.1.2 ∈ filter.joins ∧ Selects indexes filter value.2.1 ∧
      value.2.2 = filter.filterId)
    (fun before filter after one value => matchFilter_joins one value.1 value.2.1 value.2.2) folded value
  refine loop.trans (or_congr_right ?_)
  simp only [EntrySelects, indexed, Except.ok.injEq, exists_eq_left']
  constructor
  · rintro ⟨filter, member, source, target, selects, same⟩
    exact ⟨filter, ⟨member, selects⟩, source, target, same⟩
  · rintro ⟨filter, ⟨member, selects⟩, source, target, same⟩
    exact ⟨filter, member, source, target, selects, same⟩

theorem matchFragment_has (fresh : entry.1 ∉ matching.fragmentMatches) (fragmentId : FragmentId) (row : Nat)
    (filterId : FilterId) :
    MapHas next.fragmentMatches fragmentId row filterId ↔ MapHas matching.fragmentMatches fragmentId row filterId ∨
      (fragmentId = entry.1 ∧ ∃ filter, EntrySelects access entry filter row ∧ filterId = filter.filterId) := by
  obtain ⟨indexes, filterMatch, indexed, folded, isNext⟩ := matchFragment_eq matched
  have has : ∀ row filterId, filterMatch.Has row filterId ↔
      ∃ filter, EntrySelects access entry filter row ∧ filterId = filter.filterId := by
    intro row filterId
    have loop := foldlM_accumulates
      (fun (state : FilterMatch × JoinMatches) (value : Nat × FilterId) => state.1.Has value.1 value.2)
      (fun filter value => Selects indexes filter value.1 ∧ value.2 = filter.filterId)
      (fun before filter after one value => matchFilter_has one value.1 value.2) folded (row, filterId)
    simp only [FilterMatch.not_has_empty, false_or] at loop
    rw [loop]
    simp only [EntrySelects, indexed, Except.ok.injEq, exists_eq_left', and_assoc]
  have missing : matching.fragmentMatches[entry.1]? = none := Std.ExtTreeMap.getElem?_eq_none fresh
  have proper : filterMatch.Proper := foldlM_keeps (fun state : FilterMatch × JoinMatches => state.1.Proper)
    (fun _ _ _ _ so one => matchFilter_proper one so) FilterMatch.proper_empty folded
  rw [← has, isNext]
  cases empty : filterMatch.isEmpty with
  | true =>
    have none := (FilterMatch.isEmpty_iff proper).mp empty
    simp [none]
  | false =>
    simp only [Bool.false_eq_true, if_false, MapHas, Std.ExtTreeMap.getElem?_insert]
    by_cases same : fragmentId = entry.1
    · subst same
      simp [missing]
    · have other : compare entry.1 fragmentId ≠ .eq := fun equal => same (Std.LawfulEqOrd.eq_of_compare equal).symm
      simp [other, same]

theorem matchFragment_keys {fragmentId} (member : fragmentId ∈ next.fragmentMatches) :
    fragmentId ∈ matching.fragmentMatches ∨ fragmentId = entry.1 := by
  obtain ⟨_, _, _, _, isNext⟩ := matchFragment_eq matched
  rw [isNext] at member
  split at member
  next => exact .inl member
  next =>
      rcases Std.ExtTreeMap.mem_insert.mp member with same | old
      · exact .inr (Std.LawfulEqOrd.eq_of_compare same).symm
      · exact .inl old

theorem matchFragment_proper (proper : AllProper matching.fragmentMatches) : AllProper next.fragmentMatches := by
  intro fragmentId filterMatch found
  obtain ⟨_, added, _, folded, isNext⟩ := matchFragment_eq matched
  have properAdded : added.Proper := foldlM_keeps (fun state : FilterMatch × JoinMatches => state.1.Proper)
    (fun _ _ _ _ so one => matchFilter_proper one so) FilterMatch.proper_empty folded
  rw [isNext] at found
  split at found
  next => exact proper fragmentId filterMatch found
  next =>
      rw [Std.ExtTreeMap.getElem?_insert] at found
      split at found
      next =>
          cases found
          exact properAdded
      next => exact proper fragmentId filterMatch found

end

theorem foldlM_matchFragment {entries : List (FragmentId × List Filter)} (distinct : (entries.map Prod.fst).Nodup)
    (fresh : ∀ entry ∈ entries, entry.1 ∉ matching.fragmentMatches)
    (matched : entries.foldlM (matchFragment access) matching = .ok next) (fragmentId : FragmentId) (row : Nat)
    (filterId : FilterId) :
    MapHas next.fragmentMatches fragmentId row filterId ↔ MapHas matching.fragmentMatches fragmentId row filterId ∨
      ∃ entry ∈ entries, fragmentId = entry.1 ∧
        ∃ filter, EntrySelects access entry filter row ∧ filterId = filter.filterId := by
  induction entries generalizing matching with
  | nil =>
    cases matched
    simp
  | cons entry rest ih =>
    obtain ⟨middle, one, others⟩ := bind_eq_ok.mp (List.foldlM_cons.symm.trans matched)
    obtain ⟨notLater, distinctRest⟩ := List.nodup_cons.mp distinct
    have freshRest : ∀ other ∈ rest, other.1 ∉ middle.fragmentMatches := by
      intro other member present
      rcases matchFragment_keys one present with old | same
      · exact fresh other (List.mem_cons_of_mem _ member) old
      · exact notLater (List.mem_map.mpr ⟨other, member, same⟩)
    rw [ih distinctRest freshRest others, matchFragment_has one (fresh entry (List.mem_cons_self ..)),
      List.exists_mem_cons_iff, or_assoc]

theorem joinFragment_has {after entry} (joined : joinFragment access fragmentMatches entry = .ok after)
    (value : FragmentId × Nat × FilterId) :
    MapHas after value.1 value.2.1 value.2.2 ↔ MapHas fragmentMatches value.1 value.2.1 value.2.2 ∨
      (entry.1.2 = value.1 ∧ ∃ source, entry.2.Has source value.2.2 ∧
        Joined access entry.1.1 entry.1.2 source value.2.1) := by
  obtain ⟨_, isTable, result⟩ := bind_eq_ok.mp joined
  have isTable := Outcome.changeContext_eq_ok.mp isTable
  split at result
  next join isJoin =>
      cases result
      rw [mapHas_alter (joinMatches join.index entry.2) fun targetMatches => has_joinMatches]
      simp [Joined, isTable, isJoin]
  next => cases result

theorem joinFragment_proper {after entry} (joined : joinFragment access fragmentMatches entry = .ok after)
    (proper : AllProper fragmentMatches) : AllProper after := by
  intro fragmentId filterMatch found
  obtain ⟨_, _, result⟩ := bind_eq_ok.mp joined
  split at result
  next join _ =>
      cases result
      rw [Std.ExtTreeMap.getElem?_alter] at found
      split at found
      next =>
          cases found
          refine proper_joinMatches ?_
          cases before : fragmentMatches[entry.1.2]? with
          | none => exact FilterMatch.proper_empty
          | some => exact proper _ _ before
      next => exact proper fragmentId filterMatch found
  next => cases result

end Loops

def MatchesRow (access : FragmentAccess) (blockFilter : Query.BlockFilter) (fragmentId : FragmentId) (filter : Filter)
    (row : Nat) : Prop :=
  ∃ filters, (fragmentId, filters) ∈ blockFilter.iter ∧ EntrySelects access (fragmentId, filters) filter row

/-- A filter with the id matches the row, or it matches a row of another fragment
    that it joins with the one of the row, and the two rows are joined. -/
def Asked (access : FragmentAccess) (blockFilter : Query.BlockFilter) (fragmentId : FragmentId) (row : Nat)
    (filterId : FilterId) : Prop :=
  (∃ filter, MatchesRow access blockFilter fragmentId filter row ∧ filter.filterId = filterId) ∨
    ∃ source filter sourceRow, MatchesRow access blockFilter source filter sourceRow ∧ filter.filterId = filterId ∧
      fragmentId ∈ filter.joins ∧ Joined access source fragmentId sourceRow row

section Block

variable {access : FragmentAccess} {blockFilter : Query.BlockFilter} {matching : Matching}

theorem iter_distinct (blockFilter : Query.BlockFilter) : (blockFilter.iter.map Prod.fst).Nodup := by
  have ordered := blockFilter.filters.ordered_keys_toList
  refine List.pairwise_map.mpr (ordered.imp fun {left right} less same => ?_)
  rw [same, Std.ReflOrd.compare_self] at less
  cases less

section
variable (matched : blockFilter.iter.foldlM (matchFragment access) ⟨∅, ∅⟩ = .ok matching)
  (joined : matching.joins.toList.foldlM (joinFragment access) matching.fragmentMatches = .ok fragmentMatches)
include matched joined

/-- After the joins there is what the client asked for. -/
theorem mapHas_iff_asked (fragmentId : FragmentId) (row : Nat) (filterId : FilterId) :
    MapHas fragmentMatches fragmentId row filterId ↔ Asked access blockFilter fragmentId row filterId := by
  have direct := foldlM_matchFragment (iter_distinct blockFilter) (by simp) matched fragmentId row filterId
  have toJoin := foldlM_accumulates
    (fun (matching : Matching) (value : (FragmentId × FragmentId) × Nat × FilterId) =>
      MapHas matching.joins value.1 value.2.1 value.2.2)
    (fun entry value => ∃ filter, EntrySelects access entry filter value.2.1 ∧ value.1.1 = entry.1 ∧
      value.1.2 ∈ filter.joins ∧ value.2.2 = filter.filterId)
    (fun before entry after one value => matchFragment_joins one value) matched
  have all := foldlM_accumulates
    (fun (fragmentMatches : Std.ExtTreeMap FragmentId FilterMatch) (value : FragmentId × Nat × FilterId) =>
      MapHas fragmentMatches value.1 value.2.1 value.2.2)
    (fun (entry : (FragmentId × FragmentId) × FilterMatch) value => entry.1.2 = value.1 ∧ ∃ source, entry.2.Has source value.2.2 ∧
      Joined access entry.1.1 entry.1.2 source value.2.1)
    (fun before entry after one value => joinFragment_has one value) joined (fragmentId, row, filterId)
  have noJoin : ∀ pair row filterId, ¬MapHas (∅ : JoinMatches) pair row filterId := by simp [MapHas]
  have noMatch : ¬MapHas (∅ : Std.ExtTreeMap FragmentId FilterMatch) fragmentId row filterId := by simp [MapHas]
  refine all.trans (or_congr ?_ ?_)
  · refine direct.trans ⟨?_, ?_⟩
    · rintro (none | ⟨⟨_, filters⟩, member, rfl, filter, selects, rfl⟩)
      · exact absurd none noMatch
      · exact ⟨filter, ⟨filters, member, selects⟩, rfl⟩
    · rintro ⟨filter, ⟨filters, member, selects⟩, rfl⟩
      exact .inr ⟨_, member, rfl, filter, selects, rfl⟩
  · constructor
    · rintro ⟨⟨pair, filterMatch⟩, listed, rfl, sourceRow, has, isJoined⟩
      have stored := Std.ExtTreeMap.mem_toList_iff_getElem?_eq_some.mp listed
      rcases (toJoin (pair, sourceRow, filterId)).mp ⟨filterMatch, stored, has⟩ with none | ⟨entry, member, more⟩
      · exact (noJoin _ _ _ none).elim
      · obtain ⟨filter, _, sameSource, target, rfl⟩ := more
        refine ⟨pair.1, filter, sourceRow, ⟨entry.2, ?_, ?_⟩, rfl, target, isJoined⟩
        · rwa [sameSource]
        · rwa [sameSource]
    · rintro ⟨source, filter, sourceRow, ⟨_, member, selects⟩, rfl, target, isJoined⟩
      obtain ⟨filterMatch, stored, has⟩ := (toJoin ((source, fragmentId), sourceRow, filter.filterId)).mpr
        (.inr ⟨_, member, filter, selects, rfl, target, rfl⟩)
      exact ⟨((source, fragmentId), filterMatch), Std.ExtTreeMap.mem_toList_iff_getElem?_eq_some.mpr stored, rfl,
        sourceRow, has, isJoined⟩

theorem allProper_joined : AllProper fragmentMatches := by
  have direct : AllProper matching.fragmentMatches :=
    foldlM_keeps (fun matching : Matching => AllProper matching.fragmentMatches)
      (fun _ _ _ _ so one => matchFragment_proper one so) (by simp [AllProper]) matched
  exact foldlM_keeps AllProper (fun _ _ _ _ so one => joinFragment_proper one so) direct joined

theorem isEmpty_joined :
    fragmentMatches.isEmpty = false ↔ ∃ fragmentId filter row, MatchesRow access blockFilter fragmentId filter row := by
  have sound := sound_of_matched (fun _ => id) ⟨by simp, by simp⟩ matched
  rw [Std.ExtTreeMap.isEmpty_eq_false_iff, Std.ExtTreeMap.eq_empty_iff_forall_not_mem, not_forall]
  constructor
  · rintro ⟨fragmentId, member⟩
    obtain ⟨source, filter, isMatched, _⟩ := due_of_joined sound joined fragmentId (not_not.mp member)
    obtain ⟨filters, indexes, rows, inFilter, isFilter, indexed, filtered, some⟩ := isMatched
    obtain ⟨row, inside⟩ := Finset.nonempty_iff_ne_empty.mpr some
    exact ⟨source, filter, row, filters, inFilter, isFilter, indexes, indexed, rows, filtered, inside⟩
  · rintro ⟨fragmentId, filter, row, isMatched⟩
    obtain ⟨_, found, _⟩ := (mapHas_iff_asked matched joined fragmentId row filter.filterId).mpr
      (.inl ⟨filter, isMatched, rfl⟩)
    exact ⟨fragmentId, not_not.mpr (Std.ExtTreeMap.mem_iff_isSome_getElem?.mpr (by rw [found]; rfl))⟩

end

/-- A row of a fragment, with the ids of the filters that ask for it. -/
structure SelectedRow where
  fragmentId : FragmentId
  row : Nat
  filterIds : Finset FilterId

def SelectedRow.Before (left right : SelectedRow) : Prop :=
  left.fragmentId < right.fragmentId ∨ left.fragmentId = right.fragmentId ∧ left.row < right.row

def selectedRows (fragmentMatches : Std.ExtTreeMap FragmentId FilterMatch) : List SelectedRow :=
  fragmentMatches.toList.flatMap fun entry => entry.2.toList.map fun match_ => ⟨entry.1, match_.1, match_.2⟩

theorem mem_selectedRows {selected} : selected ∈ selectedRows fragmentMatches ↔
    ∃ filterMatch, fragmentMatches[selected.fragmentId]? = some filterMatch ∧
      filterMatch[selected.row]? = some selected.filterIds := by
  simp only [selectedRows, List.mem_flatMap, List.mem_map]
  constructor
  · rintro ⟨⟨fragmentId, filterMatch⟩, listed, ⟨row, filterIds⟩, inMatch, rfl⟩
    exact ⟨filterMatch, Std.ExtTreeMap.mem_toList_iff_getElem?_eq_some.mp listed, FilterMatch.mem_toList.mp inMatch⟩
  · rintro ⟨filterMatch, found, inMatch⟩
    exact ⟨(selected.fragmentId, filterMatch), Std.ExtTreeMap.mem_toList_iff_getElem?_eq_some.mpr found,
      (selected.row, selected.filterIds), FilterMatch.mem_toList.mpr inMatch, rfl⟩

theorem selectedRows_ordered (fragmentMatches : Std.ExtTreeMap FragmentId FilterMatch) :
    (selectedRows fragmentMatches).Pairwise SelectedRow.Before := by
  refine List.pairwise_flatMap.mpr ⟨fun entry _ => ?_, ?_⟩
  · refine List.pairwise_map.mpr (entry.2.ordered_keys_toList.imp fun less => ?_)
    exact .inr ⟨rfl, Std.compare_eq_lt.mp less⟩
  · refine fragmentMatches.ordered_keys_toList.imp fun {left right} less => ?_
    simp only [List.mem_map]
    rintro _ ⟨_, _, rfl⟩ _ ⟨_, _, rfl⟩
    exact .inl (Std.compare_eq_lt.mp less)

def SelectedRow.SentAs (access : FragmentAccess) (selected : SelectedRow) (item : MatchedItem) : Prop :=
  item.fragmentId = selected.fragmentId ∧ item.filterIds = selected.filterIds ∧
    ∃ body, access.getBodyFragment selected.fragmentId = .ok body ∧ body.data[selected.row]? = some item.message

variable {names : FragmentNames}

theorem readBody_eq {entry fragment} (read : readBody access names entry = .ok fragment) :
    ∃ body, access.getBodyFragment entry.1 = .ok body ∧ fragment = ⟨entry.1, body, entry.2⟩ := by
  rw [readBody] at read
  split at read
  next => cases read
  next =>
      obtain ⟨body, isBody, result⟩ := bind_eq_ok.mp read
      exact ⟨body, Outcome.changeContext_eq_ok.mp isBody, (Except.ok.inj result).symm⟩

theorem MatchedFragment.items_sentAs {fragmentId body} (isBody : access.getBodyFragment fragmentId = .ok body) {items}
    (listed : MatchedFragment.items ⟨fragmentId, body, filterMatch⟩ = .ok items) :
    List.Forall₂ (SelectedRow.SentAs access)
      (filterMatch.toList.map fun match_ => ⟨fragmentId, match_.1, match_.2⟩) items := by
  refine List.forall₂_map_left_iff.mpr ((forall₂_of_mapM listed).imp fun match_ item isItem => ?_)
  split at isItem
  next message isMessage =>
      cases isItem
      exact ⟨rfl, rfl, body, isBody, isMessage⟩
  next => cases isItem

theorem items_sentAs {entries : List (FragmentId × FilterMatch)} {fragments items}
    (read : entries.mapM (readBody access names) = .ok fragments)
    (listed : fragments.mapM MatchedFragment.items = .ok items) :
    List.Forall₂ (SelectedRow.SentAs access)
      (entries.flatMap fun entry => entry.2.toList.map fun match_ => ⟨entry.1, match_.1, match_.2⟩) items.flatten := by
  have readEach := forall₂_of_mapM read
  have listedEach := forall₂_of_mapM listed
  clear read listed
  induction readEach generalizing items with
  | nil =>
    cases listedEach
    exact .nil
  | cons isRead _ ih =>
    cases listedEach with
    | cons isListed rest =>
      obtain ⟨_, isBody, rfl⟩ := readBody_eq isRead
      rw [List.flatMap_cons, List.flatten_cons]
      exact List.rel_append (MatchedFragment.items_sentAs isBody isListed) (ih rest)

/-- The output for one block filter is what the client asked for. -/
structure Exact (access : FragmentAccess) (isLive : Bool) (blockFilter : Query.BlockFilter) (block : FilteredBlock) :
    Prop where
  /-- The rows are sent in order, each once; those that are asked for, with the ids of all filters that do. -/
  items : ∃ rows : List SelectedRow, rows.Pairwise SelectedRow.Before ∧
    (∀ selected, selected ∈ rows ↔ selected.filterIds.Nonempty ∧ ∀ filterId,
      filterId ∈ selected.filterIds ↔ Asked access blockFilter selected.fragmentId selected.row filterId) ∧
    List.Forall₂ (SelectedRow.SentAs access) rows block.items
  header : block.header.isSome = true ↔ blockFilter.headerFilter = .always ∨
    (blockFilter.headerFilter = .onData ∨ blockFilter.headerFilter = .onDataOrOnNewBlock) ∧
      (∃ fragmentId filter row, MatchesRow access blockFilter fragmentId filter row) ∨
    blockFilter.headerFilter = .onDataOrOnNewBlock ∧ isLive = true
  headerData : ∀ data, block.header = some data → ∃ header, access.getHeaderFragment = .ok header ∧ data = header.data

theorem readHeader_eq {sent header} (read : readHeader access sent = .ok header) :
    header.isSome = sent ∧ ∀ found, header = some found → access.getHeaderFragment = .ok found := by
  cases sent with
  | false =>
    cases read
    exact ⟨rfl, by simp⟩
  | true =>
    obtain ⟨_, isHeader, result⟩ := bind_eq_ok.mp read
    cases result
    refine ⟨rfl, fun other same => ?_⟩
    cases same
    exact Outcome.changeContext_eq_ok.mp isHeader

/-- The ids that stand at a row are those of the filters that ask for it. -/
theorem mem_selectedRows_iff_asked (matched : blockFilter.iter.foldlM (matchFragment access) ⟨∅, ∅⟩ = .ok matching)
    (joined : matching.joins.toList.foldlM (joinFragment access) matching.fragmentMatches = .ok fragmentMatches)
    (selected : SelectedRow) :
    selected ∈ selectedRows fragmentMatches ↔ selected.filterIds.Nonempty ∧ ∀ filterId,
      filterId ∈ selected.filterIds ↔ Asked access blockFilter selected.fragmentId selected.row filterId := by
  have asked := mapHas_iff_asked matched joined selected.fragmentId selected.row
  have stored : ∀ {filterMatch : FilterMatch} {filterIds : Finset FilterId},
      fragmentMatches[selected.fragmentId]? = some filterMatch → filterMatch[selected.row]? = some filterIds →
      ∀ filterId, filterId ∈ filterIds ↔ Asked access blockFilter selected.fragmentId selected.row filterId := by
    intro filterMatch filterIds found inMatch filterId
    rw [← asked]
    simp [MapHas, FilterMatch.Has, found, inMatch]
  rw [mem_selectedRows]
  constructor
  · rintro ⟨filterMatch, found, inMatch⟩
    have member : selected.row ∈ filterMatch :=
      Std.ExtTreeMap.mem_iff_isSome_getElem?.mpr (by rw [inMatch]; rfl)
    obtain ⟨filterId, _, sameRow, inside⟩ :=
      allProper_joined matched joined _ filterMatch found selected.row member
    cases inMatch.symm.trans sameRow
    exact ⟨⟨filterId, inside⟩, stored found inMatch⟩
  · rintro ⟨⟨filterId, inside⟩, exactIds⟩
    obtain ⟨filterMatch, found, filterIds, inMatch, _⟩ := (asked filterId).mpr ((exactIds filterId).mp inside)
    have same : filterIds = selected.filterIds := by
      ext other
      rw [exactIds, stored found inMatch]
    exact ⟨filterMatch, found, same ▸ inMatch⟩

theorem filterBlock_exact {isLive block} (filtered : filterBlock access names isLive blockFilter = .ok block) :
    Exact access isLive blockFilter block := by
  obtain ⟨_, matched, rest⟩ := bind_eq_ok.mp filtered
  obtain ⟨fragmentMatches, joined, rest⟩ := bind_eq_ok.mp rest
  obtain ⟨_, read, rest⟩ := bind_eq_ok.mp rest
  obtain ⟨_, readBodies, rest⟩ := bind_eq_ok.mp rest
  obtain ⟨_, listed, result⟩ := bind_eq_ok.mp rest
  cases result
  obtain ⟨isSent, isHeader⟩ := readHeader_eq read
  refine ⟨⟨selectedRows fragmentMatches, selectedRows_ordered _, mem_selectedRows_iff_asked matched joined,
    items_sentAs readBodies listed⟩, ?_, fun data same => ?_⟩
  · rw [Option.isSome_map, isSent, ← isEmpty_joined matched joined]
    cases blockFilter.headerFilter <;> simp [shouldSendHeader]
  · obtain ⟨found, isFound, rfl⟩ := Option.map_eq_some_iff.mp same
    exact ⟨found, isHeader found isFound, rfl⟩

theorem foldlM_filterNext {isLive} {blockFilters : List Query.BlockFilter} {before after}
    (filtered : blockFilters.foldlM (filterNext access names isLive) before = .ok after) :
    ∃ blocks, after.2 = before.2 ++ blocks ∧ List.Forall₂ (Exact access isLive) blockFilters blocks ∧
      (after.1 = true ↔ before.1 = true ∨ ∃ block ∈ blocks, block.isEmpty = false) := by
  induction blockFilters generalizing before with
  | nil =>
    cases filtered
    exact ⟨[], by simp, .nil, by simp⟩
  | cons blockFilter rest ih =>
    obtain ⟨_, one, others⟩ := bind_eq_ok.mp (List.foldlM_cons.symm.trans filtered)
    obtain ⟨block, isBlock, result⟩ := bind_eq_ok.mp one
    cases result
    obtain ⟨blocks, isAfter, exact_, flag⟩ := ih others
    refine ⟨block :: blocks, by simp [isAfter], .cons (filterBlock_exact isBlock) exact_, ?_⟩
    rw [flag, List.exists_mem_cons_iff]
    cases block.isEmpty <;> simp

/-- Whenever a block is filtered without an error, the output has for every block
    filter exactly the rows and the header it asks for, and the flag says whether
    there is anything in it. -/
theorem filterFragment_exact {names : FragmentNames} {isLive : Bool} {blockFilters : List Query.BlockFilter}
    {hasData : Bool} {blocks : List FilteredBlock}
    (filtered : filterFragment access names isLive blockFilters = .ok (hasData, blocks)) :
    List.Forall₂ (Exact access isLive) blockFilters blocks ∧
      (hasData = true ↔ ∃ block ∈ blocks, block.isEmpty = false) := by
  obtain ⟨all, isAll, exact_, flag⟩ := foldlM_filterNext filtered
  rw [List.nil_append] at isAll
  subst isAll
  exact ⟨exact_, by simpa using flag⟩

end Block

namespace JoinedEvents

/-! A block with a transaction and two events.  Two filters match the second event; one of
them asks for the transaction and for the other event of the transaction as well. -/

def block : Block where
  header := ⟨[7]⟩
  index := ⟨[⟨3, 0, 2, [⟨0, .bitmap (BitmapIndexBuilder.build (BitmapIndexBuilder.insert ∅ (.uint8 1) 1))⟩]⟩]⟩
  join := ⟨[⟨3, [⟨2, .one (JoinToOneIndexBuilder.build (JoinToOneIndexBuilder.insert ∅ 1 0))⟩,
    ⟨3, .many (JoinToManyIndexBuilder.build (JoinToManyIndexBuilder.insert ∅ 1 0))⟩]⟩]⟩
  body := [⟨2, "transaction", [[20]]⟩, ⟨3, "event", [[30], [31]]⟩]

def names : FragmentNames := (FragmentNames.base.insert 2 "transaction").insert 3 "event"

def blockFilter : Query.BlockFilter :=
  .addFilter (.addFilter {} ⟨4, 3, [⟨0, .uint8 1⟩], [2, 3]⟩) ⟨5, 3, [⟨0, .uint8 1⟩], []⟩

def sent : FilteredBlock := ⟨some [7], [⟨2, {4}, [20]⟩, ⟨3, {4}, [30]⟩, ⟨3, {5, 4}, [31]⟩]⟩

theorem filtered : filterFragment (.block ⟨block⟩) names false [blockFilter] = .ok (true, [sent]) := by decide +kernel

theorem sent_exactly : List.Forall₂ (Exact (.block ⟨block⟩) false) [blockFilter] [sent] ∧
    (true = true ↔ ∃ block ∈ [sent], block.isEmpty = false) :=
  filterFragment_exact filtered

end JoinedEvents

end Starkstream.Fragments
