import Starkstream.DataStream.Stream

/-! # What the segment task sends

Compaction advances the segmented and the grouped block at the boundaries of
segments and groups.  Then, below `2 ^ 32` and for a client that wants all
headers, the fetches that the task sends cover every block from the first block
of its first group on, without a gap and only up to the segmented block.
-/

namespace Starkstream

variable {view : ChainView}

namespace ChainView

/-! ## Boundaries -/

/-- `number` is the first block of a unit of `size` blocks. -/
def Starts (view : ChainView) (size number : Nat) : Prop :=
  ∃ count, number = view.canonical.startingBlock + count * size

/-- Everything up to `number` is segmented. -/
def SegmentedTo (view : ChainView) (number : Nat) : Prop :=
  ∃ segmented, view.segmented = some segmented ∧ number ≤ segmented

/-- The progress of compaction as the view has it. -/
structure Compacted (view : ChainView) : Prop where
  segmented : ∀ block, view.segmented = some block → view.Starts view.segmentSize (block + 1)
  grouped : ∀ block, view.grouped = some block →
    view.Starts (view.groupSize * view.segmentSize) (block + 1) ∧ view.SegmentedTo block
  small : ∀ block, view.segmented = some block → block + 1 < 2 ^ 32

/-- The view at a later moment: compaction can have made progress. -/
structure Later (view later : ChainView) : Prop where
  startingBlock : later.canonical.startingBlock = view.canonical.startingBlock
  segmentSize : later.segmentSize = view.segmentSize
  groupSize : later.groupSize = view.groupSize
  segmented : ∀ number, view.SegmentedTo number → later.SegmentedTo number

variable {number : Nat}

theorem Later.starts {later} (isLater : view.Later later) {size} :
    later.Starts size number ↔ view.Starts size number := by
  rw [Starts, isLater.startingBlock, Starts]

theorem Starts.segment (starts : view.Starts (view.groupSize * view.segmentSize) number) :
    view.Starts view.segmentSize number := by
  obtain ⟨count, rfl⟩ := starts
  exact ⟨count * view.groupSize, by rw [Nat.mul_assoc]⟩

theorem Starts.next {size} (starts : view.Starts size number) (count : Nat) :
    view.Starts size (number + count * size) := by
  obtain ⟨before, rfl⟩ := starts
  exact ⟨before + count, by rw [Nat.add_mul, Nat.add_assoc]⟩

/-- A unit that starts at or before a block after which another one starts ends
    there or before. -/
theorem Starts.unit_le {size last} (starts : view.Starts size number) (ends : view.Starts size (last + 1))
    (begun : number ≤ last) : number + size ≤ last + 1 := by
  obtain ⟨before, rfl⟩ := starts
  obtain ⟨count, isLast⟩ := ends
  rw [isLast, Nat.add_assoc, Nat.add_le_add_iff_left, ← Nat.succ_mul]
  refine Nat.mul_le_mul_right size ?_
  by_contra fewer
  have := Nat.mul_le_mul_right size (show count ≤ before by omega)
  omega

theorem alignedStart_spec {size block start} (answered : view.alignedStart size block = .ok start) :
    view.Starts size start ∧ start ≤ block ∧ view.canonical.startingBlock ≤ block ∧ 0 < size := by
  unfold alignedStart at answered
  split_ifs at answered with outside
  cases answered
  have floor := Nat.div_mul_le_self (block - view.canonical.startingBlock) size
  exact ⟨⟨_, rfl⟩, by omega, by omega, by omega⟩

theorem hasSegmentForBlock_true {block} (answered : view.hasSegmentForBlock block = .ok true) :
    view.SegmentedTo block := by
  unfold hasSegmentForBlock at answered
  cases known : view.segmented with
  | none => simp [known] at answered
  | some segmented =>
    rw [known] at answered
    obtain ⟨_, isEnd, covered⟩ := bind_eq_ok.mp answered
    obtain ⟨start, isStart, same⟩ := bind_eq_ok.mp isEnd
    cases same
    have inside : start + view.segmentSize - 1 ≤ segmented := by simpa [pure, Except.pure] using covered
    obtain ⟨-, _, _, positive⟩ := alignedStart_spec isStart
    have ceiling := Nat.lt_div_mul_add positive (a := block - view.canonical.startingBlock)
    have isFloor : start = view.canonical.startingBlock +
        (block - view.canonical.startingBlock) / view.segmentSize * view.segmentSize := by
      rw [getSegmentStartBlock, alignedStart, if_neg (by omega)] at isStart
      exact (Except.ok.inj isStart).symm
    exact ⟨segmented, known, by omega⟩

end ChainView

/-! ## Bitmaps -/

variable {filters : List BlockFilter} {start : Nat} {filter : BlockFilter}

/-- A client that wants all headers wants every block of a group. -/
theorem blocksWithData_all {count found} (answered : blocksWithData filters start count = .ok found)
    (member : filter ∈ filters) (always : filter.alwaysIncludeHeader = true) :
    bitmapRange start (start + count) ⊆ found := by
  refine foldlM_establishes (bitmapRange start (start + count) ⊆ ·) ?_ ?_ member answered
  · intro before other after contained added
    obtain ⟨_, -, same⟩ := bind_eq_ok.mp added
    cases same
    exact fun number inside => by simp [contained inside]
  · intro before after added
    obtain ⟨_, -, same⟩ := bind_eq_ok.mp added
    cases same
    exact fun number inside => by simp [always, inside]

/-- The rows of every filter are blocks with data. -/
theorem blocksWithData_rows {count found} (answered : blocksWithData filters start count = .ok found)
    (member : filter ∈ filters) : ∃ rows, filter.groupRows start = .ok rows ∧ rows ⊆ found := by
  refine foldlM_establishes (fun found => ∃ rows, filter.groupRows start = .ok rows ∧ rows ⊆ found) ?_ ?_ member answered
  · rintro before other after ⟨rows, isRows, contained⟩ added
    obtain ⟨_, -, same⟩ := bind_eq_ok.mp added
    cases same
    exact ⟨rows, isRows, fun number inside => by simp [contained inside]⟩
  · intro before after added
    obtain ⟨rows, isRows, same⟩ := bind_eq_ok.mp added
    cases same
    exact ⟨rows, isRows, fun number inside => by simp [inside]⟩

theorem filterFragment_always {isLive block hasData} (answered : filterFragment filters isLive block = .ok hasData)
    (member : filter ∈ filters) (always : filter.alwaysIncludeHeader = true) : hasData = true := by
  have isAlways : filter.headerFilter = .always := by simpa [BlockFilter.alwaysIncludeHeader] using always
  refine foldlM_establishes (· = true) ?_ ?_ member answered
  · intro before other after held added
    obtain ⟨_, -, same⟩ := bind_eq_ok.mp added
    cases same
    rw [held, Bool.true_or]
  · intro before after added
    obtain ⟨_, -, same⟩ := bind_eq_ok.mp added
    cases same
    rw [isAlways, Bool.or_true]

/-! ## Fetches -/

def blocksOf (fetches : List SegmentAccessFetch) : List Nat := fetches.flatMap (·.blocks)

@[simp] theorem blocksOf_append (left right : List SegmentAccessFetch) :
    blocksOf (left ++ right) = blocksOf left ++ blocksOf right := List.flatMap_append

@[simp] theorem blocksOf_nil : blocksOf [] = [] := rfl

@[simp] theorem blocksOf_cons (fetch : SegmentAccessFetch) (rest : List SegmentAccessFetch) :
    blocksOf (fetch :: rest) = fetch.blocks ++ blocksOf rest := rfl

theorem flatMap_range'_units (start size count : Nat) :
    (List.range count).flatMap (fun i => List.range' (start + i * size) size) =
      List.range' start (count * size) := by
  induction count with
  | zero => simp
  | succ count ih =>
    rw [List.range_succ, List.flatMap_append, ih, List.flatMap_singleton, Nat.succ_mul,
      ← List.range'_append_1]

variable {fetches : List SegmentAccessFetch}

/-- The fetches of a group are for the blocks of the group that have data. -/
theorem groupFetches_blocks {groupSize segmentSize}
    (answered : groupFetches filters start groupSize segmentSize = .ok fetches)
    (small : start + groupSize * segmentSize < 2 ^ 32) :
    ∃ found, blocksWithData filters start (groupSize * segmentSize) = .ok found ∧
      blocksOf fetches = (List.range' start (groupSize * segmentSize)).filter (· ∈ found) := by
  obtain ⟨found, isFound, same⟩ := bind_eq_ok.mp answered
  refine ⟨found, isFound, ?_⟩
  cases same
  rw [← flatMap_range'_units, List.filter_flatMap, blocksOf, List.filterMap_eq_flatMap_toList, List.flatMap_assoc]
  refine List.flatMap_congr fun i among => ?_
  -- every segment of the group is inside the group
  have inside : i * segmentSize + segmentSize ≤ groupSize * segmentSize := by
    rw [← Nat.succ_mul]
    exact Nat.mul_le_mul_right _ (List.mem_range.mp among)
  simp only
  rw [bitmapRange_eq (by omega) (by omega), Nat.add_sub_cancel_left]
  split_ifs with none
  · exact (List.isEmpty_iff.mp none).symm
  · simp only [Option.toList_some, List.flatMap_cons, List.flatMap_nil, List.append_nil]

theorem groupFetches_cover (answered : groupFetches filters start view.groupSize view.segmentSize = .ok fetches)
    (member : filter ∈ filters) (always : filter.alwaysIncludeHeader = true)
    (small : start + view.groupSize * view.segmentSize < 2 ^ 32) :
    blocksOf fetches = List.range' start (view.groupSize * view.segmentSize) := by
  obtain ⟨_, isFound, blocks⟩ := groupFetches_blocks answered small
  have all := blocksWithData_all isFound member always
  rw [bitmapRange_eq (by omega) small, Nat.add_sub_cancel_left] at all
  rw [blocks, List.filter_eq_self]
  exact fun number among => decide_eq_true (all among)

/-! ## Steps of the task -/

namespace SegmentTask

/-- The fetches that the task has made but not sent yet. -/
def outgoing : SegmentTask → List SegmentAccessFetch
  | .sendGroup _ outgoing => outgoing
  | _ => []

/-- The task has made the fetches of all blocks before `next`. -/
def Reaches (view : ChainView) (next : Nat) : SegmentTask → Prop
  | .starting _ => False
  | .readGrouped current => current = next ∧ view.Starts (view.groupSize * view.segmentSize) next
  | .groups loop => loop.current = next ∧ view.Starts (view.groupSize * view.segmentSize) next ∧
      view.Starts (view.groupSize * view.segmentSize) (loop.grouped + 1) ∧ view.SegmentedTo loop.grouped
  | .sendGroup loop _ => loop.current + view.groupSize * view.segmentSize = next ∧
      view.Starts (view.groupSize * view.segmentSize) next ∧
      view.Starts (view.groupSize * view.segmentSize) (loop.grouped + 1) ∧ view.SegmentedTo loop.grouped
  | .readSegmented current => current = next ∧ view.Starts view.segmentSize next
  | .segments current segmented => current = next ∧ view.Starts view.segmentSize next ∧
      view.Starts view.segmentSize (segmented + 1) ∧ view.SegmentedTo segmented
  | .finished _ => True

variable {task : SegmentTask}

theorem Reaches.later {later} (isLater : view.Later later) {next} (reaches : task.Reaches view next) :
    task.Reaches later next := by
  cases task with
  | starting | finished => exact reaches
  | readGrouped | readSegmented =>
    simpa only [Reaches, isLater.groupSize, isLater.segmentSize, isLater.starts] using reaches
  | groups | sendGroup | segments =>
    simp only [Reaches, isLater.groupSize, isLater.segmentSize, isLater.starts] at reaches ⊢
    obtain ⟨current, starts, ends, upTo⟩ := reaches
    exact ⟨current, starts, ends, isLater.segmented _ upTo⟩

/-- What a step adds to the fetches that are on their way. -/
def Adds (view : ChainView) (next : Nat) (before after : List SegmentAccessFetch) (task : SegmentTask) : Prop :=
  ∃ count, blocksOf after = blocksOf before ++ List.range' next count ∧ task.Reaches view (next + count)

theorem Adds.nothing {next} (reaches : task.Reaches view next) : Adds view next fetches fetches task :=
  ⟨0, (List.append_nil _).symm, reaches⟩

variable {filters : List BlockFilter}

/-- The first block of the group is at or before the block to stream from. -/
theorem step_starting {capacity found cursor channel after}
    (stepped : step view filters capacity found channel (.starting cursor) = some (task, after)) :
    after = channel ∧ task.outgoing = [] ∧
      (task = failed ∨ ∃ next, next ≤ cursor.number ∧ task.Reaches view next) := by
  rw [step] at stepped
  cases answered : view.getGroupStartBlock cursor.number with
  | error =>
    rw [answered] at stepped
    cases stepped
    exact ⟨rfl, rfl, .inl rfl⟩
  | ok current =>
    rw [answered] at stepped
    cases stepped
    obtain ⟨starts, below, -⟩ := ChainView.alignedStart_spec answered
    exact ⟨rfl, rfl, .inr ⟨current, below, rfl, starts⟩⟩

section Always

variable {filter : BlockFilter} (member : filter ∈ filters) (always : filter.alwaysIncludeHeader = true)
  (compacted : view.Compacted)
include member always compacted

omit member always compacted in
theorem fetchGroup_cases (found : Bool) (loop : GroupLoop) :
    fetchGroup view filters found loop = failed ∨ ∃ (after : GroupLoop) (fetches : List SegmentAccessFetch),
      fetchGroup view filters found loop = .sendGroup after fetches ∧
      groupFetches filters loop.current view.groupSize view.segmentSize = .ok fetches ∧
      after.current = loop.current ∧ after.grouped = loop.grouped := by
  rcases filled : fillQueue loop.grouped (view.groupSize * view.segmentSize)
    (groupQueueSize - loop.queue.length) loop.queue loop.nextGroup with ⟨queue, nextGroup⟩
  simp only [fetchGroup, filled]
  cases queue with
  | nil => exact .inl rfl
  | cons fetched =>
    by_cases mismatch : found = false ∨ loop.current ≠ fetched
    · exact .inl (if_pos mismatch)
    · simp only [if_neg mismatch]
      cases answered : groupFetches filters loop.current view.groupSize view.segmentSize with
      | error => exact .inl rfl
      | ok fetches => exact .inr ⟨_, fetches, rfl, rfl, rfl, rfl⟩

theorem fetchGroup_adds {found loop next} (channel : List SegmentAccessFetch)
    (reaches : (SegmentTask.groups loop).Reaches view next) (more : loop.current ≤ loop.grouped) :
    fetchGroup view filters found loop = failed ∨
      Adds view next channel (channel ++ (fetchGroup view filters found loop).outgoing)
        (fetchGroup view filters found loop) := by
  obtain ⟨rfl, starts, ends, upTo⟩ := reaches
  rcases fetchGroup_cases found loop with failed | ⟨_, _, done, answered, sameCurrent, sameGrouped⟩
  · exact .inl failed
  · obtain ⟨segmented, isSegmented, below⟩ := upTo
    have small := compacted.small segmented isSegmented
    have inside := starts.unit_le ends more
    have covers := groupFetches_cover answered member always (by omega)
    rw [done]
    refine .inr ⟨view.groupSize * view.segmentSize, by simp only [outgoing, blocksOf_append, covers],
      by rw [sameCurrent], ?_, ?_⟩
    · simpa only [Nat.one_mul] using starts.next 1
    · rw [sameGrouped]
      exact ⟨ends, segmented, isSegmented, below⟩

omit member always in
theorem nextGroup_reaches {loop next} (reaches : (SegmentTask.sendGroup loop []).Reaches view next) :
    nextGroup view loop = failed ∨ (nextGroup view loop).Reaches view next ∧ (nextGroup view loop).outgoing = [] := by
  obtain ⟨rfl, starts, ends, upTo⟩ := reaches
  have commuted : loop.current + view.segmentSize * view.groupSize =
      loop.current + view.groupSize * view.segmentSize := by rw [Nat.mul_comm]
  simp only [nextGroup]
  split_ifs
  · split
    · rename_i grouped answered
      obtain ⟨groupEnds, groupTo⟩ := compacted.grouped _ (ChainView.optionalCursor_some answered)
      exact .inr ⟨⟨commuted, starts, groupEnds, groupTo⟩, rfl⟩
    · exact .inr ⟨trivial, rfl⟩
    · exact .inl rfl
  · exact .inr ⟨⟨commuted, starts, ends, upTo⟩, rfl⟩

/-- A step fails, or it adds fetches of the blocks that follow. -/
theorem step_adds {capacity found} {task after : SegmentTask} {channel channelAfter next}
    (reaches : task.Reaches view next)
    (stepped : step view filters capacity found channel task = some (after, channelAfter)) :
    (after = failed ∧ channelAfter = channel) ∨
      Adds view next (channel ++ task.outgoing) (channelAfter ++ after.outgoing) after := by
  cases task with
  | starting => exact reaches.elim
  | finished => cases stepped
  | readGrouped =>
    obtain ⟨rfl, starts⟩ := reaches
    rw [step] at stepped
    split at stepped
    · rename_i grouped answered
      cases stepped
      obtain ⟨ends, upTo⟩ := compacted.grouped _ (ChainView.optionalCursor_some answered)
      exact .inr (.nothing ⟨rfl, starts, ends, upTo⟩)
    · cases stepped
      exact .inr (.nothing ⟨rfl, starts.segment⟩)
    · cases stepped
      exact .inl ⟨rfl, rfl⟩
  | groups =>
    rw [step] at stepped
    split_ifs at stepped with more
    · cases stepped
      rcases fetchGroup_adds member always compacted channel reaches more with failed | adds
      · exact .inl ⟨failed, rfl⟩
      · exact .inr (by simpa only [outgoing, List.append_nil] using adds)
    · cases stepped
      exact .inr (.nothing ⟨reaches.1, reaches.2.1.segment⟩)
  | sendGroup loop outgoing =>
    cases outgoing with
    | nil =>
      cases stepped
      rcases nextGroup_reaches compacted reaches with failed | ⟨reached, none⟩
      · exact .inl ⟨failed, rfl⟩
      · rw [none]
        exact .inr (.nothing reached)
    | cons =>
      rw [step] at stepped
      split_ifs at stepped
      · cases stepped
        exact .inl ⟨rfl, rfl⟩
      · cases stepped
        refine .inr ?_
        simp only [SegmentTask.outgoing, List.append_assoc, List.singleton_append]
        exact .nothing reaches
  | readSegmented =>
    obtain ⟨rfl, starts⟩ := reaches
    rw [step] at stepped
    split at stepped
    · rename_i segmented answered
      cases stepped
      have isSegmented := ChainView.optionalCursor_some answered
      exact .inr (.nothing ⟨rfl, starts, compacted.segmented _ isSegmented, _, isSegmented, le_rfl⟩)
    · cases stepped
      exact .inr (.nothing trivial)
    · cases stepped
      exact .inl ⟨rfl, rfl⟩
  | segments =>
    obtain ⟨rfl, starts, ends, upTo⟩ := reaches
    rw [step] at stepped
    split_ifs at stepped with more
    · cases stepped
      exact .inl ⟨rfl, rfl⟩
    · cases stepped
      obtain ⟨block, isBlock, below⟩ := upTo
      have small := compacted.small block isBlock
      have inside := starts.unit_le ends more
      rw [bitmapRange_eq (by omega) (by omega), Nat.add_sub_cancel_left]
      refine .inr ⟨view.segmentSize, by simp [outgoing], rfl, ?_, ends, block, isBlock, below⟩
      simpa only [Nat.one_mul] using starts.next 1
    · cases stepped
      exact .inr (.nothing trivial)

end Always

end SegmentTask

end Starkstream
