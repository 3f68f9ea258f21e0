import Starkstream.DataStream.FilterResult

/-! # Blocks whose tables stay inside their bodies

The rows of an index and of a join table are positions in a body.  Nothing checks
them when a block is read: `filter_fragment` indexes the body of a fragment with
every row that was matched or joined.  When all rows of the tables of a block are
positions in the bodies they refer to, no filter makes it panic.
-/

namespace Starkstream

theorem exists_of_mapM {ε α β : Type} {next : α → Except ε β} {items : List α} {results}
    (mapped : items.mapM next = .ok results) {result} (member : result ∈ results) :
    ∃ item ∈ items, next item = .ok result := by
  have each := forall₂_of_mapM mapped
  clear mapped
  induction each with
  | nil => cases member
  | cons isResult _ ih =>
    rcases List.mem_cons.mp member with rfl | later
    · exact ⟨_, List.mem_cons_self, isResult⟩
    · obtain ⟨item, inside, isItem⟩ := ih later
      exact ⟨item, List.mem_cons_of_mem _ inside, isItem⟩

/-- The call returns, with a value or with an error. -/
def Outcome.Returns {ε α : Type} (outcome : Outcome ε α) : Prop := outcome ≠ .error .panic

namespace Outcome.Returns

variable {ε δ α β : Type}

theorem ok (value : α) : Outcome.Returns (.ok value : Outcome ε α) := fun same => by cases same

theorem fail (context : ε) (attachments : List String) : Outcome.Returns (Outcome.fail context attachments : Outcome ε α) :=
  fun same => by cases same

theorem bind {first : Outcome ε α} {next : α → Outcome ε β} (returns : first.Returns)
    (then_ : ∀ value, first = .ok value → (next value).Returns) : Outcome.Returns (first >>= next) := by
  cases first with
  | ok value => exact then_ value rfl
  | error fault =>
    cases fault with
    | error => exact fun same => by cases same
    | panic => exact absurd rfl returns

theorem changeContext {outcome : Outcome ε α} (returns : outcome.Returns) (context : δ) (attachments : List String) :
    (outcome.changeContext context attachments).Returns := by
  cases outcome with
  | ok => exact fun same => by cases same
  | error fault =>
    cases fault with
    | error => exact fun same => by cases same
    | panic => exact absurd rfl returns

theorem foldlM {next : β → α → Outcome ε β} {items : List α} (each : ∀ before, ∀ item ∈ items, (next before item).Returns)
    (start : β) : Outcome.Returns (items.foldlM next start) := by
  induction items generalizing start with
  | nil => exact ok start
  | cons item rest ih =>
    rw [List.foldlM_cons]
    refine bind (each start item List.mem_cons_self) fun after _ => ih ?_ after
    intro before other member
    exact each before other (List.mem_cons_of_mem _ member)

theorem mapM {next : α → Outcome ε β} {items : List α} (each : ∀ item ∈ items, (next item).Returns) :
    Outcome.Returns (items.mapM next) := by
  induction items with
  | nil => exact ok []
  | cons item rest ih =>
    rw [List.mapM_cons]
    refine bind (each item List.mem_cons_self) fun value _ => ?_
    refine bind (ih fun other member => each other (List.mem_cons_of_mem _ member)) fun values _ => ?_
    exact ok _

end Outcome.Returns

/-- Every row of the index is a position in a list of this length. -/
def Index.Within (rows : Nat) : Index → Prop
  | .empty => True
  | .bitmap table => ∀ entry ∈ table.entries, ∀ row ∈ entry.2, row < rows

/-- Every key of the table is a row of the source, and every value one of the target. -/
def JoinTo.Within (sourceRows targetRows : Nat) : JoinTo → Prop
  | .one table => ∀ entry ∈ table.entries, entry.1 < sourceRows ∧ entry.2 < targetRows
  | .many table => ∀ entry ∈ table.entries, entry.1 < sourceRows ∧ ∀ row ∈ entry.2, row < targetRows

theorem JoinTo.Within.of_maps {table : JoinTo} {sourceRows targetRows source target}
    (within : table.Within sourceRows targetRows) (maps : table.Maps source target) :
    source < sourceRows ∧ target < targetRows := by
  cases table with
  | one inner =>
    obtain ⟨entry, member, same, rfl⟩ := (BinarySearch.Table.get_eq_some_iff
      (inner.ordered_of_compare fun _ _ => rfl) target).mp maps
    rw [← Std.LawfulEqOrd.eq_of_compare same]
    exact within entry member
  | many inner =>
    obtain ⟨rows, found, inside⟩ := maps
    obtain ⟨entry, member, same, rfl⟩ := (BinarySearch.Table.get_eq_some_iff
      (inner.ordered_of_compare fun _ _ => rfl) rows).mp found
    rw [← Std.LawfulEqOrd.eq_of_compare same]
    exact ⟨(within entry member).1, (within entry member).2 target inside⟩

namespace Fragments

/-- The tables of the block only have rows of its bodies. -/
structure Consistent (block : Block) : Prop where
  indexes : ∀ index ∈ block.index.indexes, ∃ body, (BlockAccess.mk block).getBodyFragment index.fragmentId = .ok body ∧
    index.rangeStart = 0 ∧ index.rangeLen = body.data.length ∧ ∀ entry ∈ index.indexes, entry.index.Within body.data.length
  joins : ∀ join ∈ block.join.joins, ∀ table ∈ join.joins, ∃ source target,
    (BlockAccess.mk block).getBodyFragment join.fragmentId = .ok source ∧
      (BlockAccess.mk block).getBodyFragment table.toFragmentId = .ok target ∧
      table.index.Within source.data.length target.data.length

/-- Lengths and rows are cast to `u32` in the source.  In a consistent block whose bodies
    have fewer than `2 ^ 32` rows the casts change none of them. -/
theorem Consistent.inU32 {block} (consistent : Consistent block) (small : ∀ body ∈ block.body, body.data.length < 2 ^ 32) :
    (∀ index ∈ block.index.indexes, index.rangeLen < 2 ^ 32 ∧ ∀ entry ∈ index.indexes, entry.index.Within index.rangeLen) ∧
      ∀ join ∈ block.join.joins, ∀ table ∈ join.joins, ∀ source target, table.index.Maps source target →
        source < 2 ^ 32 ∧ target < 2 ^ 32 := by
  have fits {fragmentId body} (found : (BlockAccess.mk block).getBodyFragment fragmentId = .ok body) :
      body.data.length < 2 ^ 32 := by
    unfold BlockAccess.getBodyFragment at found
    split at found <;> cases found
    exact small _ (List.mem_of_find?_eq_some ‹_›)
  constructor
  · intro index isIndex
    obtain ⟨body, found, -, length, within⟩ := consistent.indexes index isIndex
    rw [length]
    exact ⟨fits found, within⟩
  · intro join isJoin table isTable source target maps
    obtain ⟨_, _, sourceFound, targetFound, within⟩ := consistent.joins join isJoin table isTable
    exact ⟨(within.of_maps maps).1.trans (fits sourceFound), (within.of_maps maps).2.trans (fits targetFound)⟩

open Query

theorem narrow_subset {indexes conditions start rows} (narrowed : Filter.narrow indexes conditions start = .ok rows) :
    rows ⊆ start := by
  induction conditions generalizing start with
  | nil =>
    cases narrowed
    exact Finset.Subset.refl _
  | cons condition rest ih =>
    rw [Filter.narrow] at narrowed
    split at narrowed
    · cases narrowed
    · split at narrowed
      · exact ih narrowed
      · split at narrowed
        · exact (ih narrowed).trans Finset.inter_subset_left
        · cases narrowed
          exact Finset.empty_subset _

theorem narrow_returns (indexes : IndexFragment) (conditions : List Condition) (start : Bitmap) :
    (Filter.narrow indexes conditions start).Returns := by
  induction conditions generalizing start with
  | nil => exact .ok start
  | cons condition rest ih =>
    rw [Filter.narrow]
    split
    · exact .fail _ _
    · split
      · exact ih start
      · split
        · exact ih _
        · exact .ok ∅

section
variable {block : Block} {fragmentId : FragmentId}

theorem getIndexFragment_returns : ((FragmentAccess.block ⟨block⟩).getIndexFragment fragmentId).Returns := by
  simp only [FragmentAccess.getIndexFragment, BlockAccess.getIndexFragment]
  split
  · exact .ok _
  · exact .fail _ _

theorem getJoinFragment_returns : ((FragmentAccess.block ⟨block⟩).getJoinFragment fragmentId).Returns := by
  simp only [FragmentAccess.getJoinFragment, BlockAccess.getJoinFragment]
  split
  · exact .ok _
  · exact .fail _ _

theorem getBodyFragment_returns : ((FragmentAccess.block ⟨block⟩).getBodyFragment fragmentId).Returns := by
  simp only [FragmentAccess.getBodyFragment, BlockAccess.getBodyFragment]
  split
  · exact .ok _
  · exact .fail _ _

theorem mem_indexes_of_get {index} (found : (FragmentAccess.block ⟨block⟩).getIndexFragment fragmentId = .ok index) :
    index ∈ block.index.indexes ∧ index.fragmentId = fragmentId := by
  simp only [FragmentAccess.getIndexFragment, BlockAccess.getIndexFragment] at found
  split at found
  case _ isFirst =>
    cases found
    exact ⟨List.mem_of_find?_eq_some isFirst, by simpa using List.find?_some isFirst⟩
  · cases found

theorem mem_joins_of_get {join} (found : (FragmentAccess.block ⟨block⟩).getJoinFragment fragmentId = .ok join) :
    join ∈ block.join.joins ∧ join.fragmentId = fragmentId := by
  simp only [FragmentAccess.getJoinFragment, BlockAccess.getJoinFragment] at found
  split at found
  case _ isFirst =>
    cases found
    exact ⟨List.mem_of_find?_eq_some isFirst, by simpa using List.find?_some isFirst⟩
  · cases found

end

namespace Consistent

variable {block : Block} {blockFilter : Query.BlockFilter} {fragmentId : FragmentId} {row : Nat}

variable (consistent : Consistent block)
include consistent

theorem matchesRow_lt {filter} (isMatch : MatchesRow (.block ⟨block⟩) blockFilter fragmentId filter row) {body}
    (read : (FragmentAccess.block ⟨block⟩).getBodyFragment fragmentId = .ok body) : row < body.data.length := by
  obtain ⟨_, -, -, index, indexed, _, filtered, inside⟩ := isMatch
  obtain ⟨member, rfl⟩ := mem_indexes_of_get indexed
  obtain ⟨_, otherRead, _, _, -⟩ := consistent.indexes index member
  cases read.symm.trans otherRead
  have ranged := Finset.mem_Ico.mp (narrow_subset filtered inside)
  omega

theorem joined_lt {source sourceRow} (isJoined : Joined (.block ⟨block⟩) source fragmentId sourceRow row) {body}
    (read : (FragmentAccess.block ⟨block⟩).getBodyFragment fragmentId = .ok body) : row < body.data.length := by
  obtain ⟨join, table, found, isTable, maps⟩ := isJoined
  obtain ⟨member, rfl⟩ := mem_joins_of_get found
  obtain ⟨_, _, -, targetRead, within⟩ := consistent.joins join member table (List.mem_of_find?_eq_some isTable)
  have sameId : table.toFragmentId = fragmentId := by simpa using List.find?_some isTable
  rw [sameId] at targetRead
  cases read.symm.trans targetRead
  exact (within.of_maps maps).2

theorem asked_lt {filterId} (asked : Asked (.block ⟨block⟩) blockFilter fragmentId row filterId) {body}
    (read : (FragmentAccess.block ⟨block⟩).getBodyFragment fragmentId = .ok body) : row < body.data.length := by
  rcases asked with ⟨_, isMatch, -⟩ | ⟨_, _, _, -, -, -, isJoined⟩
  · exact consistent.matchesRow_lt isMatch read
  · exact consistent.joined_lt isJoined read

theorem items_returns {matching fragmentMatches}
    (matched : blockFilter.iter.foldlM (matchFragment (.block ⟨block⟩)) ⟨∅, ∅⟩ = .ok matching)
    (joined : matching.joins.toList.foldlM (joinFragment (.block ⟨block⟩)) matching.fragmentMatches =
      .ok fragmentMatches) {names : FragmentNames} {fragments}
    (read : fragmentMatches.toList.mapM (readBody (.block ⟨block⟩) names) = .ok fragments) :
    ∀ fragment ∈ fragments, fragment.items.Returns := by
  intro fragment member
  obtain ⟨entry, listed, isRead⟩ := exists_of_mapM read member
  obtain ⟨_, bodyRead, rfl⟩ := readBody_eq isRead
  refine .mapM fun match_ inMatch => ?_
  have selected : SelectedRow.mk entry.1 match_.1 match_.2 ∈ selectedRows fragmentMatches :=
    mem_selectedRows.mpr ⟨entry.2, Std.ExtTreeMap.mem_toList_iff_getElem?_eq_some.mp listed,
      FilterMatch.mem_toList.mp inMatch⟩
  obtain ⟨⟨filterId, inside⟩, exactIds⟩ := (mem_selectedRows_iff_asked matched joined _).mp selected
  have bound := consistent.asked_lt ((exactIds filterId).mp inside) bodyRead
  simp only [List.getElem?_eq_getElem bound]
  exact .ok _

theorem filterBlock_returns (names : FragmentNames) (isLive : Bool) (blockFilter : Query.BlockFilter) :
    (filterBlock (.block ⟨block⟩) names isLive blockFilter).Returns := by
  refine .bind (.foldlM (fun matching entry _ => ?_) _) fun matching matched => ?_
  · refine .bind (getIndexFragment_returns.changeContext _ _) fun index _ => ?_
    refine .bind (.foldlM (fun state filter _ => ?_) _) fun result _ => ?_
    · refine .bind ((narrow_returns _ _ _).changeContext _ _) fun rows _ => ?_
      split
      · exact .ok _
      · exact .ok _
    · obtain ⟨-, -⟩ := result
      dsimp only
      split
      · exact .ok _
      · exact .ok _
  refine .bind (.foldlM (fun before entry _ => ?_) _) fun fragmentMatches joined => ?_
  · refine .bind (getJoinFragment_returns.changeContext _ _) fun join _ => ?_
    split
    · exact .ok _
    · exact .fail _ _
  refine .bind ?_ fun header _ => ?_
  · rw [readHeader]
    split
    · exact .ok _
    · exact .ok _
  refine .bind (.mapM fun entry _ => ?_) fun fragments read => ?_
  · rw [readBody]
    split
    · exact .fail _ _
    · exact .bind (getBodyFragment_returns.changeContext _ _) fun body _ => .ok _
  exact .bind (.mapM (consistent.items_returns matched joined read)) fun items _ => .ok _

/-- No filter reads a row that is not there. -/
theorem filterFragment_returns (names : FragmentNames) (isLive : Bool) (blockFilters : List Query.BlockFilter) :
    (filterFragment (.block ⟨block⟩) names isLive blockFilters).Returns :=
  .foldlM (fun _ blockFilter _ => .bind (consistent.filterBlock_returns names isLive blockFilter) fun _ _ => .ok _) _

end Consistent

end Fragments

end Starkstream
