import Starkstream.ChainView.Waiting
import Starkstream.DataStream.Fetches
import Starkstream.DataStream.StoredFilters
import Starkstream.Lib.Scan

/-! # What a tick over segments goes through

`tick_segment_stream` starts a task that plans fetches, group by group and then
segment by segment, and goes through the blocks of the fetches in order.  The view
changes meanwhile, always to watermarks that compaction can have reached.

The blocks that the tick has gone through and those on their way are one scan from
the cursor on.  Since the groups end before the last segment, the task plans at
least one whole segment after the groups, and the last block of the scan is the
segmented block.
-/

namespace Starkstream

/-! ## Watermarks -/

/-- Compaction as the view shows it: whole segments and whole groups, and at least
    one segment after the last group. -/
structure ChainView.Watermarked (view : ChainView) : Prop where
  segmentSize : 0 < view.segmentSize
  groupSize : 0 < view.groupSize
  segmented : ∀ block, view.segmented = some block → ∃ segments,
    block + 1 = view.canonical.startingBlock + segments * view.segmentSize ∧
    ∀ grouped, view.grouped = some grouped → ∃ groups,
      grouped + 1 = view.canonical.startingBlock + groups * (view.groupSize * view.segmentSize) ∧
      groups * view.groupSize < segments
  grouped : view.grouped ≠ none → view.segmented ≠ none

/-- Block numbers are in the range of `u32`, and so is the next one. -/
def ChainView.Small (view : ChainView) : Prop := ∀ block, view.segmented = some block → block + 1 < 2 ^ 32

/-- A tick over segments, and the view that it reads. -/
structure SegmentTick where
  view : ChainView
  streaming : Streaming
  /-- History: the blocks that were handed to `filter_fragment`. -/
  visited : List Nat
  /-- History: the segmented block that the task read. -/
  segmentedRead : Option Nat
  /-- The tick returned without an error. -/
  completed : Bool

inductive SegmentTickInput where
  | set (setter : Setter)
  | move (move : Move)

def SegmentTask.reads (view : ChainView) : SegmentTask → Option Nat
  | .readSegmented _ => (view.getSegmentedCursor.toOption.bind id).map (·.number)
  | _ => none

namespace SegmentTick

def start (view : ChainView) (stream : DataStream) (cursor : Cursor) : SegmentTick :=
  { view
    streaming := ⟨stream, .segments cursor (.starting cursor) [] none, []⟩
    visited := []
    segmentedRead := none
    completed := false }

/-- The block that the tick hands to `filter_fragment` when it delivers. -/
def visits (streaming : Streaming) : Option Nat :=
  match streaming.task with
  | .segments cursor _ _ (some ⟨firstBlock, number :: _, headers⟩) =>
    if firstBlock ≤ number ∧ cursor.number ≤ number ∧ (headers[number - firstBlock]?).isSome then some number
    else none
  | _ => none

/-- The segmented block that the next step of the task reads. -/
def reads (tick : SegmentTick) : Option Nat :=
  match tick.streaming.task with
  | .segments _ producer _ _ => producer.reads tick.view
  | _ => none

/-- The channel is empty and the task that filled it returned, with an error or not: the
    tick takes the end of the channel and returns without an error. -/
def Completes (streaming : Streaming) : Bool :=
  match streaming.task with
  | .segments _ (.finished _) [] none => true
  | _ => false

/-- The channel is empty, and the task that filled it returned an error. -/
def EndsFailed (streaming : Streaming) : Bool :=
  match streaming.task with
  | .segments _ (.finished false) [] none => true
  | _ => false

def Running (streaming : Streaming) : Bool :=
  match streaming.task with
  | .segments _ _ _ _ => true
  | _ => false

def step (segments : Nat → Option (List Cursor)) (tick : SegmentTick) : SegmentTickInput → Option SegmentTick
  | .set setter => some { tick with view := tick.view.set setter }
  | .move move =>
    if Running tick.streaming then
      (tick.streaming.step tick.view segments move).map fun streaming =>
        { tick with
          streaming
          visited := if move = .deliver then tick.visited ++ (visits tick.streaming).toList else tick.visited
          segmentedRead :=
            match move with
            | .produce _ => tick.reads.or tick.segmentedRead
            | _ => tick.segmentedRead
          completed :=
            match move with
            | .receive _ => Completes tick.streaming
            | _ => tick.completed }
    else none

end SegmentTick

/-! ## Wanted blocks -/

def Wanted (filters : List BlockFilter) (segments : Nat → Option (List Cursor)) (number : Nat) : Prop :=
  ∃ filter ∈ filters, filter.alwaysIncludeHeader = true ∨ filter.MatchesStored segments number

variable {filters : List BlockFilter}

theorem groupFetches_scan {segments start groupSize segmentSize fetches}
    (indexed : Indexed filters segments (groupSize * segmentSize))
    (answered : groupFetches filters start groupSize segmentSize = .ok fetches)
    (small : start + groupSize * segmentSize < 2 ^ 32) :
    Scan (Wanted filters segments) start (start + groupSize * segmentSize) (blocksOf fetches) := by
  obtain ⟨_, isFound, blocks⟩ := groupFetches_blocks answered small
  rw [blocks]
  refine .filter_range' _ _ fun number lower upper wanted => decide_eq_true ?_
  obtain ⟨filter, member, always | matched⟩ := wanted
  · refine blocksWithData_all isFound member always ?_
    rw [bitmapRange_eq (by omega) small, Nat.add_sub_cancel_left]
    exact List.mem_range'_1.mpr ⟨lower, upper⟩
  · obtain ⟨rows, isRows, contained⟩ := blocksWithData_rows isFound member
    exact contained (indexed filter member start rows small isRows number lower upper matched)

namespace ChainView

/-! ## What the watermarks say -/

variable {view : ChainView}

theorem Watermarked.segmented_starts (watermarked : view.Watermarked) {block} (known : view.segmented = some block) :
    view.Starts view.segmentSize (block + 1) := by
  obtain ⟨segments, isBlock, -⟩ := watermarked.segmented block known
  exact ⟨segments, isBlock⟩

theorem Watermarked.grouped_spec (watermarked : view.Watermarked) {grouped} (known : view.grouped = some grouped) :
    view.Starts (view.groupSize * view.segmentSize) (grouped + 1) ∧ view.SegmentedTo (grouped + 1) := by
  obtain ⟨block, isBlock⟩ := Option.ne_none_iff_exists'.mp (watermarked.grouped (by simp [known]))
  obtain ⟨segments, _, groupEnds⟩ := watermarked.segmented block isBlock
  obtain ⟨groups, isGroup, fewer⟩ := groupEnds grouped known
  refine ⟨⟨groups, isGroup⟩, block, isBlock, ?_⟩
  have positive := watermarked.segmentSize
  have atLeast : (groups * view.groupSize + 1) * view.segmentSize ≤ segments * view.segmentSize :=
    Nat.mul_le_mul_right _ fewer
  rw [Nat.succ_mul, Nat.mul_assoc] at atLeast
  omega

theorem set_later (setter : Setter)
    (grows : ∀ number, view.SegmentedTo number → (view.set setter).SegmentedTo number) :
    view.Later (view.set setter) := by
  cases setter <;> exact ⟨rfl, rfl, rfl, grows⟩

theorem grouped_set (setter : Setter) (known : view.grouped ≠ none) : (view.set setter).grouped ≠ none := by
  cases setter with
  | groupedBlock => exact nofun
  | recent | finalizedBlock | pendingGeneration | segmentedBlock => exact known

end ChainView

variable {task : SegmentTask} {found : Bool}

namespace SegmentTask

/-! ## The task -/

/-- The group loop works on groups that are compacted. -/
structure InGroups (view : ChainView) (loop : GroupLoop) : Prop where
  known : view.grouped ≠ none
  ends : view.Starts (view.groupSize * view.segmentSize) (loop.grouped + 1)
  segmented : view.SegmentedTo (loop.grouped + 1)

/-- The task planned every block before `next`, and has some way to go.  `read` is
    the segmented block that it read and `planned` are the blocks it planned. -/
def Covers (view : ChainView) (cursor : Nat) (read : Option Nat) (planned : List Nat) (next : Nat) :
    SegmentTask → Prop
  | .starting _ => False
  | .readGrouped current => current = next ∧ view.Starts (view.groupSize * view.segmentSize) next ∧ view.SegmentedTo next
  | .groups loop => loop.current = next ∧ view.Starts (view.groupSize * view.segmentSize) next ∧
      view.SegmentedTo next ∧ InGroups view loop
  | .sendGroup loop _ => loop.current + view.groupSize * view.segmentSize = next ∧
      view.Starts (view.groupSize * view.segmentSize) next ∧ view.SegmentedTo next ∧ InGroups view loop
  | .readSegmented current => current = next ∧ view.Starts view.segmentSize next ∧ view.SegmentedTo next
  | .segments current segmented => current = next ∧ view.Starts view.segmentSize next ∧
      view.Starts view.segmentSize (segmented + 1) ∧ view.SegmentedTo segmented ∧ read = some segmented ∧
      cursor ≤ segmented ∧ (next ≤ segmented ∨ next = segmented + 1 ∧ planned.getLast? = some segmented)
  | .finished ok => ok = true → ∃ segmented, read = some segmented ∧ cursor ≤ segmented ∧ next = segmented + 1 ∧
      planned.getLast? = some segmented

theorem Covers.set {view cursor next read planned} (covers : task.Covers view cursor read planned next)
    (setter : Setter) (grows : ∀ number, view.SegmentedTo number → (view.set setter).SegmentedTo number) :
    task.Covers (view.set setter) cursor read planned next := by
  have later := ChainView.set_later setter grows
  have inGroups : ∀ {loop : GroupLoop}, InGroups view loop → InGroups (view.set setter) loop := by
    intro loop inside
    refine ⟨ChainView.grouped_set setter inside.known, ?_, grows _ inside.segmented⟩
    rw [later.groupSize, later.segmentSize]
    exact later.starts.mpr inside.ends
  cases task with
  | starting | finished => exact covers
  | readGrouped | readSegmented =>
    simp only [Covers, later.groupSize, later.segmentSize, later.starts] at covers ⊢
    exact ⟨covers.1, covers.2.1, grows _ covers.2.2⟩
  | groups | sendGroup =>
    simp only [Covers, later.groupSize, later.segmentSize, later.starts] at covers ⊢
    exact ⟨covers.1, covers.2.1, grows _ covers.2.2.1, inGroups covers.2.2.2⟩
  | segments =>
    simp only [Covers, later.segmentSize, later.starts] at covers ⊢
    exact ⟨covers.1, covers.2.1, covers.2.2.1, grows _ covers.2.2.2.1, covers.2.2.2.2⟩

theorem getLast?_segment {planned cursor current size segmented} (positive : 0 < size)
    (ends : current + size = segmented + 1) (upTo : cursor ≤ segmented) :
    (planned ++ (List.range' current size).filter (cursor ≤ ·)).getLast? = some segmented := by
  obtain ⟨before, rfl⟩ : ∃ before, size = before + 1 := ⟨size - 1, by omega⟩
  have isLast : current + before = segmented := by omega
  rw [List.range'_1_concat, isLast, List.filter_append, List.filter_singleton, decide_eq_true upTo, cond_true,
    ← List.append_assoc, List.getLast?_concat]

section Steps

variable {view : ChainView} {segments : Nat → Option (List Cursor)} {cursor next : Nat} {read : Option Nat}
  {planned : List Nat}

/-- What a step plans: the task goes on from a later place. -/
def Plans (view : ChainView) (filters : List BlockFilter) (segments : Nat → Option (List Cursor)) (cursor next : Nat)
    (read : Option Nat) (planned : List Nat) (before after : List SegmentAccessFetch) (task : SegmentTask) : Prop :=
  ∃ new later, blocksOf after = blocksOf before ++ new ∧ next ≤ later ∧
    Scan (Wanted filters segments) next later new ∧
    task.Covers view cursor read (planned ++ new.filter (cursor ≤ ·)) later

theorem Plans.nothing {fetches} (covers : task.Covers view cursor read planned next) :
    Plans view filters segments cursor next read planned fetches fetches task := by
  refine ⟨[], next, (List.append_nil _).symm, le_rfl, .nil le_rfl, ?_⟩
  rw [List.filter_nil, List.append_nil]
  exact covers

theorem fetchGroup_plans (small : view.Small) (indexed : Indexed filters segments (view.groupSize * view.segmentSize))
    {loop} (channel : List SegmentAccessFetch) (covers : (SegmentTask.groups loop).Covers view cursor read planned next)
    (more : loop.current ≤ loop.grouped) :
    fetchGroup view filters found loop = failed ∨
      Plans view filters segments cursor next read planned channel
        (channel ++ (fetchGroup view filters found loop).outgoing) (fetchGroup view filters found loop) := by
  obtain ⟨rfl, starts, -, inGroups⟩ := covers
  rcases fetchGroup_cases found loop with failed | ⟨_, fetches, done, answered, sameCurrent, sameGrouped⟩
  · exact .inl failed
  · obtain ⟨segmented, isSegmented, _⟩ := inGroups.segmented
    have bound := small segmented isSegmented
    have inside := starts.unit_le inGroups.ends more
    rw [done]
    refine .inr ⟨blocksOf fetches, loop.current + view.groupSize * view.segmentSize, ?_, Nat.le_add_right _ _,
      groupFetches_scan indexed answered (by omega), ?_⟩
    · simp only [outgoing, blocksOf_append]
    · refine ⟨by rw [sameCurrent], ?_, ⟨segmented, isSegmented, by omega⟩, inGroups.known, ?_, ?_⟩
      · simpa only [Nat.one_mul] using starts.next 1
      · rw [sameGrouped]
        exact inGroups.ends
      · rw [sameGrouped]
        exact inGroups.segmented

theorem nextGroup_covers (watermarked : view.Watermarked) {loop}
    (covers : (SegmentTask.sendGroup loop []).Covers view cursor read planned next) :
    nextGroup view loop = failed ∨
      (nextGroup view loop).Covers view cursor read planned next ∧ (nextGroup view loop).outgoing = [] := by
  obtain ⟨rfl, starts, upTo, inGroups⟩ := covers
  have commuted : loop.current + view.segmentSize * view.groupSize =
      loop.current + view.groupSize * view.segmentSize := by rw [Nat.mul_comm]
  simp only [nextGroup]
  split_ifs
  · split
    · rename_i grouped answered
      have known := ChainView.optionalCursor_some answered
      obtain ⟨ends, groupTo⟩ := watermarked.grouped_spec known
      exact .inr ⟨⟨commuted, starts, upTo, inGroups.known, ends, groupTo⟩, rfl⟩
    · rename_i answered
      exact absurd (ChainView.optionalCursor_none answered) inGroups.known
    · exact .inl rfl
  · exact .inr ⟨⟨commuted, starts, upTo, inGroups.known, inGroups.ends, inGroups.segmented⟩, rfl⟩

theorem step_plans (watermarked : view.Watermarked) (small : view.Small)
    (indexed : Indexed filters segments (view.groupSize * view.segmentSize)) (upTo : view.SegmentedTo cursor)
    {capacity after channel channelAfter} (covers : task.Covers view cursor read planned next)
    (stepped : step view filters capacity found channel task = some (after, channelAfter)) :
    (after = failed ∧ channelAfter = channel) ∨
      Plans view filters segments cursor next ((task.reads view).or read) planned (channel ++ task.outgoing)
        (channelAfter ++ after.outgoing) after := by
  cases task with
  | starting => exact covers.elim
  | finished => cases stepped
  | readGrouped =>
    obtain ⟨rfl, starts, segmentedTo⟩ := covers
    rw [step] at stepped
    split at stepped
    · rename_i grouped answered
      cases stepped
      have known := ChainView.optionalCursor_some answered
      obtain ⟨ends, groupTo⟩ := watermarked.grouped_spec known
      exact .inr (.nothing ⟨rfl, starts, segmentedTo, by simp [known], ends, groupTo⟩)
    · cases stepped
      exact .inr (.nothing ⟨rfl, starts.segment, segmentedTo⟩)
    · cases stepped
      exact .inl ⟨rfl, rfl⟩
  | groups =>
    rw [step] at stepped
    split_ifs at stepped with more
    · cases stepped
      rcases fetchGroup_plans small indexed channel covers more with failed | plans
      · exact .inl ⟨failed, rfl⟩
      · exact .inr (by simpa only [outgoing, List.append_nil, reads, Option.none_or] using plans)
    · cases stepped
      exact .inr (.nothing ⟨covers.1, covers.2.1.segment, covers.2.2.1⟩)
  | sendGroup loop outgoing =>
    cases outgoing with
    | nil =>
      cases stepped
      rcases nextGroup_covers watermarked covers with failed | ⟨covered, none⟩
      · exact .inl ⟨failed, rfl⟩
      · rw [none]
        exact .inr (.nothing covered)
    | cons =>
      rw [step] at stepped
      split_ifs at stepped
      · cases stepped
        exact .inl ⟨rfl, rfl⟩
      · cases stepped
        refine .inr ?_
        simp only [SegmentTask.outgoing, List.append_assoc, List.singleton_append]
        exact .nothing covers
  | readSegmented current =>
    obtain ⟨rfl, starts, segmentedTo⟩ := covers
    rw [step] at stepped
    split at stepped
    · rename_i segmented answered
      cases stepped
      have known := ChainView.optionalCursor_some answered
      have isRead : (reads view (.readSegmented current)).or read = some segmented.number := by
        simp only [reads, answered]
        rfl
      obtain ⟨_, isBlock, below⟩ := segmentedTo
      cases known.symm.trans isBlock
      obtain ⟨_, isOther, within⟩ := upTo
      cases known.symm.trans isOther
      exact .inr (.nothing ⟨rfl, starts, watermarked.segmented_starts known, ⟨_, known, le_rfl⟩, isRead, within,
        .inl below⟩)
    · rename_i answered
      cases stepped
      obtain ⟨_, isBlock, -⟩ := segmentedTo
      cases isBlock.symm.trans (ChainView.optionalCursor_none answered)
    · cases stepped
      exact .inl ⟨rfl, rfl⟩
  | segments current segmented =>
    obtain ⟨rfl, starts, ends, segmentedTo, isRead, within, last⟩ := covers
    rw [step] at stepped
    split_ifs at stepped with more
    · cases stepped
      exact .inl ⟨rfl, rfl⟩
    · cases stepped
      obtain ⟨block, isBlock, below⟩ := segmentedTo
      have bound := small block isBlock
      have inside := starts.unit_le ends more
      rw [bitmapRange_eq (by omega) (by omega), Nat.add_sub_cancel_left]
      refine .inr ⟨List.range' current view.segmentSize, current + view.segmentSize, by simp [outgoing],
        Nat.le_add_right _ _, .range' _ _, rfl, ?_, ends, ⟨block, isBlock, below⟩, isRead, within, ?_⟩
      · simpa only [Nat.one_mul] using starts.next 1
      · by_cases final : current + view.segmentSize = segmented + 1
        · exact .inr ⟨final, getLast?_segment watermarked.segmentSize final within⟩
        · exact .inl (by omega)
    · cases stepped
      rcases last with before | ⟨isNext, isLast⟩
      · exact absurd before more
      · exact .inr (.nothing fun _ => ⟨segmented, isRead, within, isNext, isLast⟩)

end Steps

end SegmentTask

namespace SegmentTick

/-! ## The tick -/

/-- On completion the stream stands on the segmented block that the task read, and
    every wanted block up to it was visited. -/
def Final (segments : Nat → Option (List Cursor)) (cursor : Cursor) (tick : SegmentTick) : Prop :=
  ∃ segmented, tick.segmentedRead = some segmented ∧ cursor.number ≤ segmented ∧
    tick.streaming.stream.current = some (.newFinalized segmented) ∧
    ∀ number, cursor.number ≤ number → number ≤ segmented →
      Wanted tick.streaming.stream.blockFilter segments number → number ∈ tick.visited

/-- The blocks are visited in ascending order from the cursor on, and a tick that
    completes has visited what it should. -/
structure Covers (segments : Nat → Option (List Cursor)) (cursor : Cursor) (tick : SegmentTick) : Prop where
  ordered : tick.visited.Pairwise (· < ·)
  lower : ∀ number ∈ tick.visited, cursor.number ≤ number
  completes : tick.completed = true → tick.Final segments cursor

/-- The view shows watermarks of compaction, never lower ones, and the next block
    number is in the range of `u32`.  The error of a task is noticed before the end of
    its channel. -/
def Regular (tick : SegmentTick) : SegmentTickInput → Prop
  | .set setter => (tick.view.set setter).Watermarked ∧ (tick.view.set setter).Small ∧
      ∀ number, tick.view.SegmentedTo number → (tick.view.set setter).SegmentedTo number
  | .move (.receive _) => EndsFailed tick.streaming = false
  | .move _ => True

def onTheWay (cursor : Cursor) (producer : SegmentTask) (channel : List SegmentAccessFetch)
    (access : Option SegmentAccess) : List Nat :=
  (access.elim [] (·.blocks) ++ blocksOf (channel ++ producer.outgoing)).filter (cursor.number ≤ ·)

/-- The state of the task and of what is on its way. -/
inductive InFlight (segments : Nat → Option (List Cursor)) (cursor : Cursor) (tick : SegmentTick)
    (producer : SegmentTask) (channel : List SegmentAccessFetch) (access : Option SegmentAccess) : Prop
  | starting (isStarting : producer = .starting cursor) (idle : channel = [] ∧ access = none)
      (nothing : tick.visited = [])
  | going (next : Nat)
      (scan : Scan (Wanted tick.streaming.stream.blockFilter segments) cursor.number next
        (tick.visited ++ onTheWay cursor producer channel access))
      (covers : producer.Covers tick.view cursor.number tick.segmentedRead
        (tick.visited ++ onTheWay cursor producer channel access) next)
  | failed (isFailed : producer = .failed)
      (ordered : (tick.visited ++ onTheWay cursor producer channel access).Pairwise (· < ·))
      (lower : ∀ number ∈ tick.visited ++ onTheWay cursor producer channel access, cursor.number ≤ number)

/-- The stream stands on the last block that was visited. -/
def Current (tick : SegmentTick) : Prop :=
  ∀ last, tick.visited.getLast? = some last → tick.streaming.stream.current = some (.newFinalized last)

/-- What holds between two steps, by where the stream stands. -/
def Flow (segments : Nat → Option (List Cursor)) (cursor : Cursor) (tick : SegmentTick) : Prop :=
  match tick.streaming.task with
  | .segments other producer channel access =>
    other = cursor ∧ tick.completed = false ∧ tick.Current ∧ InFlight segments cursor tick producer channel access
  | _ => tick.Covers segments cursor

structure Sound (segments : Nat → Option (List Cursor)) (cursor : Cursor) (blocksInGroup : Nat) (tick : SegmentTick) :
    Prop where
  watermarked : tick.view.Watermarked
  small : tick.view.Small
  sizes : tick.view.groupSize * tick.view.segmentSize = blocksInGroup
  upTo : tick.view.SegmentedTo cursor.number
  indexed : Indexed tick.streaming.stream.blockFilter segments blocksInGroup
  flow : tick.Flow segments cursor

variable {segments : Nat → Option (List Cursor)} {cursor : Cursor} {tick after : SegmentTick} {producer : SegmentTask}
  {channel : List SegmentAccessFetch} {access : Option SegmentAccess}

namespace InFlight

variable (flight : InFlight segments cursor tick producer channel access)
include flight

/-- What is planned is in order, whatever becomes of the task. -/
theorem planned :
    (tick.visited ++ onTheWay cursor producer channel access).Pairwise (· < ·) ∧
      ∀ number ∈ tick.visited ++ onTheWay cursor producer channel access, cursor.number ≤ number := by
  cases flight with
  | starting isStarting idle nothing =>
    obtain ⟨rfl, rfl⟩ := idle
    simp [onTheWay, nothing, isStarting, SegmentTask.outgoing]
  | going next scan => exact ⟨scan.ordered, scan.lower⟩
  | failed _ ordered lower => exact ⟨ordered, lower⟩

theorem visited (notCompleted : tick.completed = false) : tick.Covers segments cursor := by
  obtain ⟨ordered, lower⟩ := flight.planned
  refine ⟨(List.pairwise_append.mp ordered).1, fun number member => lower number (List.mem_append_left _ member), ?_⟩
  simp [notCompleted]

/-- Moving blocks from the channel to the tick, or leaving one out, changes nothing. -/
theorem moved {later : SegmentTick} {channelAfter accessAfter} (begun : ¬ (channel = [] ∧ access = none))
    (view : later.view = tick.view) (filters : later.streaming.stream.blockFilter = tick.streaming.stream.blockFilter)
    (read : later.segmentedRead = tick.segmentedRead)
    (same : later.visited ++ onTheWay cursor producer channelAfter accessAfter =
      tick.visited ++ onTheWay cursor producer channel access) :
    InFlight segments cursor later producer channelAfter accessAfter := by
  cases flight with
  | starting _ idle => exact absurd idle begun
  | going next scan covers =>
    refine .going next ?_ ?_
    · rw [same, filters]
      exact scan
    · rw [same, view, read]
      exact covers
  | failed isFailed ordered lower => exact .failed isFailed (same ▸ ordered) (same ▸ lower)

end InFlight

variable {blocksInGroup : Nat}

/-- A step of the tick keeps what does not depend on the stream. -/
theorem Sound.kept (sound : tick.Sound segments cursor blocksInGroup) {streaming : Streaming}
    {visited segmentedRead completed} (filters : streaming.stream.blockFilter = tick.streaming.stream.blockFilter)
    (flow : Flow segments cursor ⟨tick.view, streaming, visited, segmentedRead, completed⟩) :
    Sound segments cursor blocksInGroup ⟨tick.view, streaming, visited, segmentedRead, completed⟩ :=
  ⟨sound.watermarked, sound.small, sound.sizes, sound.upTo, filters ▸ sound.indexed, flow⟩

theorem starting_covers {view : ChainView} {capacity channelAfter} (upTo : view.SegmentedTo cursor.number)
    (read : Option Nat)
    (stepped : SegmentTask.step view filters capacity found channel (.starting cursor) = some (task, channelAfter)) :
    channelAfter = channel ∧ task.outgoing = [] ∧ task.reads view = none ∧
      (task = .failed ∨ ∃ next, next ≤ cursor.number ∧ task.Covers view cursor.number read [] next) := by
  rw [SegmentTask.step] at stepped
  cases answered : view.getGroupStartBlock cursor.number with
  | error =>
    rw [answered] at stepped
    cases stepped
    exact ⟨rfl, rfl, rfl, .inl rfl⟩
  | ok current =>
    rw [answered] at stepped
    cases stepped
    obtain ⟨starts, below, -⟩ := ChainView.alignedStart_spec answered
    obtain ⟨segmented, isSegmented, within⟩ := upTo
    exact ⟨rfl, rfl, rfl, .inr ⟨current, below, rfl, starts, segmented, isSegmented, below.trans within⟩⟩

section
variable (sound : tick.Sound segments cursor blocksInGroup)
include sound

theorem InFlight.produce (flight : InFlight segments cursor tick producer channel access) {capacity channelAfter}
    {later : SegmentTick} (stepped : producer.step tick.view tick.streaming.stream.blockFilter capacity found channel =
      some (task, channelAfter)) (view : later.view = tick.view) (visited : later.visited = tick.visited)
    (filters : later.streaming.stream.blockFilter = tick.streaming.stream.blockFilter)
    (read : later.segmentedRead = (producer.reads tick.view).or tick.segmentedRead) :
    InFlight segments cursor later task channelAfter access := by
  cases flight with
  | starting isStarting idle nothing =>
    subst isStarting
    obtain ⟨rfl, rfl⟩ := idle
    obtain ⟨rfl, outgoing, -, failed | ⟨next, below, covers⟩⟩ := starting_covers sound.upTo later.segmentedRead stepped
    · refine .failed failed ?_ ?_ <;> simp [visited, nothing, onTheWay, outgoing]
    · have planned : later.visited ++ onTheWay cursor task [] none = [] := by
        simp [visited, nothing, onTheWay, outgoing]
      refine .going next ?_ ?_
      · rw [planned]
        exact .nil below
      · rw [planned, view]
        exact covers
  | going next scan covers =>
    have indexed := sound.indexed
    rw [← sound.sizes] at indexed
    rcases SegmentTask.step_plans sound.watermarked sound.small indexed sound.upTo covers stepped with
      ⟨failed, same⟩ | ⟨new, place, blocks, onward, further, covered⟩
    · -- what was not sent yet is dropped
      have shorter : (later.visited ++ onTheWay cursor task channelAfter access).Sublist
          (tick.visited ++ onTheWay cursor producer channel access) := by
        subst failed same
        rw [visited]
        refine (List.Sublist.refl _).append (List.Sublist.filter _ ((List.Sublist.refl _).append ?_))
        simp only [SegmentTask.outgoing, SegmentTask.failed, List.append_nil, blocksOf_append]
        exact List.sublist_append_left _ _
      exact .failed failed (scan.ordered.sublist shorter) fun number member =>
        scan.lower number (shorter.subset member)
    · have longer : later.visited ++ onTheWay cursor task channelAfter access =
          tick.visited ++ onTheWay cursor producer channel access ++ new.filter (cursor.number ≤ ·) := by
        rw [visited, onTheWay, blocks, onTheWay, ← List.append_assoc, List.filter_append, List.append_assoc]
      refine .going place ?_ ?_
      · rw [longer, filters]
        exact scan.extend further onward
      · rw [longer, view, read]
        exact covered
  | failed isFailed =>
    subst isFailed
    cases stepped

theorem Sound.produce (stepped : tick.step segments (.move (.produce found)) = some after) :
    after.Sound segments cursor blocksInGroup := by
  simp only [step, Option.ite_none_right_eq_some] at stepped
  obtain ⟨_, moved⟩ := stepped
  obtain ⟨_, ran, rfl⟩ := Option.map_eq_some_iff.mp moved
  have flow := sound.flow
  simp only [Streaming.step] at ran
  split at ran
  case _ other producer channel access task =>
    obtain ⟨⟨_, _⟩, produced, rfl⟩ := Option.map_eq_some_iff.mp ran
    simp only [Flow, task] at flow
    obtain ⟨rfl, notCompleted, current, flight⟩ := flow
    refine sound.kept rfl ⟨rfl, notCompleted, current, ?_⟩
    refine flight.produce sound produced rfl (by simp) rfl ?_
    simp only [reads, task]
  · cases ran

/-- The tick ends with an error, or with what it has visited. -/
theorem Sound.stopped {streaming : Streaming} {visited completed}
    (filters : streaming.stream.blockFilter = tick.streaming.stream.blockFilter) (ended : Running streaming = false)
    (covers : Covers segments cursor ⟨tick.view, streaming, visited, tick.segmentedRead, completed⟩) :
    Sound segments cursor blocksInGroup ⟨tick.view, streaming, visited, tick.segmentedRead, completed⟩ := by
  refine sound.kept filters ?_
  simp only [Flow]
  split
  case _ task =>
    simp only [Running, task] at ended
    cases ended
  · exact covers

end

/-- The last fetch was received and the task returned. -/
theorem InFlight.final (flight : InFlight segments cursor tick (.finished true) [] none) (current : tick.Current) :
    tick.Final segments cursor := by
  cases flight with
  | starting isStarting | failed isStarting => cases isStarting
  | going next scan finished =>
    have nothing : onTheWay cursor (.finished true) [] none = [] := rfl
    rw [nothing, List.append_nil] at scan finished
    obtain ⟨segmented, isRead, within, _, isLast⟩ := finished rfl
    refine ⟨segmented, isRead, within, current segmented isLast, fun number lower upper wanted => ?_⟩
    exact scan.complete number lower (by omega) wanted

section
variable (sound : tick.Sound segments cursor blocksInGroup)
include sound

theorem Sound.receive (regular : tick.Regular (.move (.receive found)))
    (stepped : tick.step segments (.move (.receive found)) = some after) :
    after.Sound segments cursor blocksInGroup := by
  simp only [step, Option.ite_none_right_eq_some] at stepped
  obtain ⟨_, moved⟩ := stepped
  obtain ⟨_, ran, rfl⟩ := Option.map_eq_some_iff.mp moved
  have flow := sound.flow
  simp only [Streaming.step] at ran
  split at ran
  case _ other producer channel task =>
    simp only [Flow, task] at flow
    obtain ⟨rfl, notCompleted, current, flight⟩ := flow
    have covers := flight.visited notCompleted
    cases channel with
    | nil =>
      simp only [Streaming.receive] at ran
      split at ran
      case _ ok =>
        cases ran
        refine sound.stopped (by rfl) rfl ⟨covers.ordered, covers.lower, fun isCompleted => ?_⟩
        cases ok with
        | true => exact flight.final current
        | false => simp only [Regular, EndsFailed, task, reduceCtorEq] at regular
      · cases ran
    | cons =>
      simp only [Streaming.receive] at ran
      split at ran
      · cases ran
        refine sound.kept (by rfl) ⟨rfl, ?_, current, ?_⟩
        · simp only [Completes, task]
        · refine flight.moved (by simp) rfl rfl rfl ?_
          simp [onTheWay]
      · cases ran
        refine sound.stopped (by rfl) rfl ⟨covers.ordered, covers.lower, ?_⟩
        simp [Completes, task]
  · cases ran

theorem Sound.joined (stepped : tick.step segments (.move .joined) = some after) :
    after.Sound segments cursor blocksInGroup := by
  simp only [step, Option.ite_none_right_eq_some] at stepped
  obtain ⟨_, moved⟩ := stepped
  obtain ⟨_, ran, rfl⟩ := Option.map_eq_some_iff.mp moved
  simp only [Streaming.step] at ran
  split at ran
  · cases ran
    exact sound
  case _ other channel task =>
    cases ran
    have flow := sound.flow
    simp only [Flow, task] at flow
    obtain ⟨rfl, notCompleted, -, flight⟩ := flow
    have covers := flight.visited notCompleted
    refine sound.stopped (by rfl) rfl ⟨covers.ordered, covers.lower, fun isCompleted => ?_⟩
    cases notCompleted.symm.trans isCompleted
  · cases ran

theorem Sound.deliver (stepped : tick.step segments (.move .deliver) = some after) :
    after.Sound segments cursor blocksInGroup := by
  simp only [step, Option.ite_none_right_eq_some] at stepped
  obtain ⟨-, moved⟩ := stepped
  obtain ⟨streaming, ran, rfl⟩ := Option.map_eq_some_iff.mp moved
  simp only [Streaming.step] at ran
  split at ran
  case _ other producer channel access task =>
    have flow := sound.flow
    simp only [Flow, task] at flow
    obtain ⟨rfl, notCompleted, current, flight⟩ := flow
    obtain ⟨firstBlock, blocks, headers⟩ := access
    have covers := flight.visited notCompleted
    cases ran
    have notFinal : ∀ {final : Prop}, tick.completed = true → final := fun isCompleted => by
      cases notCompleted.symm.trans isCompleted
    cases blocks with
    | nil =>
      have unvisited : visits tick.streaming = none := by simp only [visits, task]
      simp only [if_true, unvisited, Option.toList_none, List.append_nil, Streaming.deliver]
      refine sound.kept (by rfl) ⟨rfl, notCompleted, current, ?_⟩
      exact flight.moved (by simp) rfl rfl rfl rfl
    | cons number rest =>
      have visiting : visits tick.streaming =
          if firstBlock ≤ number ∧ other.number ≤ number ∧ (headers[number - firstBlock]?).isSome then some number
          else none := by simp only [visits, task]
      simp only [if_true, visiting, Streaming.deliver]
      by_cases before : number < firstBlock
      · rw [if_pos before, if_neg (by omega), Option.toList_none, List.append_nil]
        exact sound.stopped (by rfl) rfl ⟨covers.ordered, covers.lower, notFinal⟩
      · have offset : firstBlock + (number - firstBlock) = number := by omega
        simp only [if_neg before, Cursor.newFinalized, offset]
        by_cases skipped : number < other.number
        · rw [if_pos skipped, if_neg (by omega), Option.toList_none, List.append_nil]
          refine sound.kept (by rfl) ⟨rfl, notCompleted, current, flight.moved (by simp) rfl rfl rfl ?_⟩
          simp [onTheWay, skipped]
        · rw [if_neg skipped]
          have shifts : ∀ channel, onTheWay other producer channel (some ⟨firstBlock, number :: rest, headers⟩) =
              number :: onTheWay other producer channel (some ⟨firstBlock, rest, headers⟩) := by
            intro channel
            simp [onTheWay, not_lt.mp skipped]
          cases found : headers[number - firstBlock]? with
          | none =>
            rw [if_neg (by simp), Option.toList_none, List.append_nil]
            exact sound.stopped (by rfl) rfl ⟨covers.ordered, covers.lower, notFinal⟩
          | some =>
            rw [if_pos ⟨by omega, by omega, rfl⟩, Option.toList_some]
            have planned := flight.planned
            rw [shifts, List.append_cons] at planned
            simp only
            split
            · refine sound.stopped (by rfl) rfl ⟨(List.pairwise_append.mp planned.1).1, ?_, notFinal⟩
              exact fun visited member => planned.2 visited (List.mem_append_left _ member)
            · refine sound.kept (by rfl) ⟨rfl, notCompleted, ?_, ?_⟩
              · intro last isLast
                rw [List.getLast?_concat] at isLast
                cases isLast
                rfl
              · refine flight.moved (by simp) rfl rfl rfl ?_
                rw [shifts]
                exact List.append_assoc ..
  · cases ran

theorem Sound.set {setter} (regular : tick.Regular (.set setter))
    (stepped : tick.step segments (.set setter) = some after) : after.Sound segments cursor blocksInGroup := by
  cases stepped
  obtain ⟨watermarked, small, grows⟩ := regular
  have later := ChainView.set_later setter grows
  refine ⟨watermarked, small, ?_, grows _ sound.upTo, sound.indexed, ?_⟩
  · rw [later.groupSize, later.segmentSize]
    exact sound.sizes
  · have flow := sound.flow
    simp only [Flow] at flow ⊢
    split
    case _ other producer channel access task =>
      simp only [task] at flow
      obtain ⟨same, notCompleted, current, flight⟩ := flow
      refine ⟨same, notCompleted, current, ?_⟩
      cases flight with
      | starting isStarting idle nothing => exact .starting isStarting idle nothing
      | going next scan covers => exact .going next scan (covers.set setter grows)
      | failed isFailed ordered lower => exact .failed isFailed ordered lower
    case _ notRunning =>
      split at flow
      case _ task => exact absurd task (notRunning _ _ _ _)
      · exact ⟨flow.ordered, flow.lower, flow.completes⟩

theorem Sound.step {input} (regular : tick.Regular input) (stepped : tick.step segments input = some after) :
    after.Sound segments cursor blocksInGroup := by
  cases input with
  | set => exact sound.set regular stepped
  | move move =>
    cases move with
    | produce => exact sound.produce stepped
    | joined => exact sound.joined stepped
    | receive => exact sound.receive regular stepped
    | deliver => exact sound.deliver stepped
    | nextCursor | chooseSource | headChanged | finalizedChanged | sendSingle =>
      simp only [SegmentTick.step, Option.ite_none_right_eq_some] at stepped
      obtain ⟨running, moved⟩ := stepped
      obtain ⟨_, ran, -⟩ := Option.map_eq_some_iff.mp moved
      unfold Running at running
      split at running
      case _ task => simp only [Streaming.step, task, reduceCtorEq] at ran
      · cases running

theorem Sound.covers : tick.Covers segments cursor := by
  have flow := sound.flow
  unfold Flow at flow
  split at flow
  · exact flow.2.2.2.visited flow.2.1
  · exact flow

end

/-- While the block after the segmented one is in the range of `u32`, a tick over the
    objects of compaction goes through the blocks from its cursor on, in order and
    without leaving out one that is wanted, and ends on the segmented block. -/
theorem covers_of_regular {view : ChainView} {stream : DataStream} {last : SegmentTick}
    {inputs : List SegmentTickInput} {objects : StoredObjects} {filters : List Query.BlockFilter}
    (watermarked : view.Watermarked) (small : view.Small)
    (complete : view.hasSegmentForBlock cursor.number = .ok true)
    (compacted : objects.Compacted segments view.canonical.startingBlock view.segmentSize view.groupSize)
    (evaluates : stream.blockFilter = filters.map objects.blockFilter)
    (regular : Runs.Meets (step segments) Regular (start view stream cursor) inputs)
    (reached : Runs.run (step segments) (start view stream cursor) inputs = some last) :
    last.Covers segments cursor := by
  have indexed : Indexed stream.blockFilter segments (view.groupSize * view.segmentSize) := by
    rw [evaluates]
    exact compacted.indexed filters
  have started : (start view stream cursor).Sound segments cursor (view.groupSize * view.segmentSize) :=
    ⟨watermarked, small, rfl, ChainView.hasSegmentForBlock_true complete, indexed, rfl, rfl, nofun,
      .starting rfl ⟨rfl, rfl⟩ rfl⟩
  have sound : last.Sound segments cursor (view.groupSize * view.segmentSize) :=
    Runs.run_guarded (fun _ _ _ sound guard stepped => sound.step guard stepped) started regular reached
  exact sound.covers

end SegmentTick

namespace LastBlock

/-- The only block, with the highest number in the range of `u32`. -/
def block : BlockInfo := ⟨2 ^ 32 - 1, ⟨[1]⟩, ⟨[]⟩⟩

def view : ChainView :=
  .new (2 ^ 32 - 1) (some (2 ^ 32 - 1)) none 1 1 ⟨fun _ => .ok none, 2 ^ 32 - 1, 100, (Building.single block).snapshot⟩

def stored : Fragments.SegmentAccess :=
  TwoBlocks.objectsOf ⟨block.cursor, [⟨block.cursor, ⟨[TwoBlocks.indexOf [.uint8 1]]⟩⟩]⟩

/-- A segment with the block, and no group. -/
def objects : StoredObjects where
  names := TwoBlocks.names
  groups _ := none
  segment _ := stored
  access _ := .segment ⟨stored, 0⟩

def segments (first : Nat) : Option (List Cursor) := if first = 2 ^ 32 - 1 then some [block.cursor] else none

def everyHeader : List Query.BlockFilter := [{ headerFilter := .always }]

def stream : DataStream where
  blockFilter := everyHeader.map objects.blockFilter
  current := none
  finalized := block.cursor
  finality := .accepted
  prefetchSegmentCount := 1

/-- The whole tick; the segment has no block to deliver. -/
def inputs : List SegmentTickInput :=
  List.replicate 5 (.move (.produce true)) ++ [.move (.receive true), .move .deliver, .move (.receive true)]

theorem compacted : objects.Compacted segments (2 ^ 32 - 1) 1 1 where
  placed first headers isSegment := by
    unfold segments at isSegment
    split at isSegment <;> cases isSegment
    rename_i isFirst
    refine ⟨⟨0, by omega⟩, by simp, ?_⟩
    rintro (_ | offset) found isBlock
    · rw [isFirst]
      rfl
    · simp at isBlock
  built := nofun

end LastBlock

open LastBlock in
/-- The tick completes without having visited the block, and without moving the stream. -/
theorem SegmentTick.covers_fails_lastBlock : LastBlock.view.Watermarked ∧
    LastBlock.view.hasSegmentForBlock block.number = .ok true ∧ objects.Compacted segments (2 ^ 32 - 1) 1 1 ∧
    stream.blockFilter = everyHeader.map objects.blockFilter ∧
    ∃ last, Runs.run (SegmentTick.step segments) (.start LastBlock.view stream block.cursor) inputs = some last ∧
      last.completed = true ∧ last.segmentedRead = some (2 ^ 32 - 1) ∧ last.visited = [] ∧
      last.streaming.stream.current = none ∧ ¬ last.Covers segments block.cursor := by
  refine ⟨?_, rfl, compacted, rfl, _, rfl, rfl, rfl, rfl, rfl, fun covers => ?_⟩
  · refine ⟨by decide, by decide, ?_, nofun⟩
    rintro number ⟨⟩
    exact ⟨1, rfl, nofun⟩
  · obtain ⟨segmented, -, -, isCurrent, -⟩ := covers.completes rfl
    cases isCurrent

namespace GroupThenSegment

/-! A group of one segment and a segment after it.  The second block of each has the key. -/

open MissedHead TwoBlocks

def third : BlockInfo := ⟨2, ⟨[3]⟩, ⟨[2]⟩⟩

def fourth : BlockInfo := ⟨3, ⟨[4]⟩, ⟨[3]⟩⟩

def chain : CanonicalChainSegment := ((((Building.single genesis).grown second).grown third).grown fourth).snapshot

def grouped : ChainView := .new 3 (some 3) (some 1) 2 1 ⟨fun _ => .ok none, 0, 100, chain⟩

def later : Segment IndexGroupFragment :=
  ⟨third.cursor, [⟨third.cursor, ⟨[indexOf [.uint8 0]]⟩⟩, ⟨fourth.cursor, ⟨[indexOf [.uint8 1]]⟩⟩]⟩

def objectsAt (first : Nat) : Fragments.SegmentAccess :=
  objectsOf (if first = 0 then keyed else later)

def objects : StoredObjects where
  names := names
  groups first := if first = 0 then (SegmentGroupBuilder.group 2 [keyed]).toOption else none
  segment := objectsAt
  access block := .segment ⟨objectsAt (block.number / 2 * 2), block.number % 2⟩

def headers : Nat → Option (List Cursor)
  | 0 => some [genesis.cursor, second.cursor]
  | 2 => some [third.cursor, fourth.cursor]
  | _ => none

def stream : DataStream where
  blockFilter := [blockFilter].map objects.blockFilter
  current := none
  finalized := fourth.cursor
  finality := .accepted
  prefetchSegmentCount := 2

def started : SegmentTick := .start grouped stream genesis.cursor

/-- Both fetches are made before the first one is received. -/
def inputs : List SegmentTickInput :=
  List.replicate 9 (.move (.produce true)) ++ [.move (.receive true), .move .deliver, .move .deliver,
    .move (.receive true), .move .deliver, .move .deliver, .move .deliver, .move (.receive true)]

/-- The view does not change, and no error of the task is left behind its channel. -/
def noticesFailure (tick : SegmentTick) : SegmentTickInput → Bool
  | .move _ => !SegmentTick.EndsFailed tick.streaming
  | .set _ => false

theorem compacted : objects.Compacted headers 0 2 1 where
  placed first headers isSegment := by
    unfold GroupThenSegment.headers at isSegment
    split at isSegment <;> cases isSegment
    · refine ⟨⟨0, rfl⟩, le_rfl, ?_⟩
      rintro (_ | _ | offset) block isBlock <;> cases isBlock <;> rfl
    · refine ⟨⟨1, rfl⟩, le_rfl, ?_⟩
      rintro (_ | _ | offset) block isBlock <;> cases isBlock <;> rfl
  built first group isGroup := by
    simp only [objects] at isGroup
    split at isGroup
    case isTrue isFirst =>
      subst isFirst
      refine ⟨⟨0, rfl⟩, [keyed], layout _ _, regular _ _, oneVariant, ?_, ?_⟩
      · cases isBuilt : SegmentGroupBuilder.group 2 [keyed] <;>
          simp_all [Except.toOption]
      · rintro (_ | place) part isPart <;> cases isPart
        rfl
    · cases isGroup

end GroupThenSegment

open GroupThenSegment

/-- The first block of the group is not visited; no filter matches it. -/
theorem SegmentTick.covers_both : ∃ last, Runs.run (SegmentTick.step headers) started inputs = some last ∧
    last.completed = true ∧ last.visited = [1, 2, 3] ∧ last.streaming.stream.current = some (.newFinalized 3) ∧
    last.Covers headers MissedHead.genesis.cursor := by
  have result : (Runs.run (SegmentTick.step headers) started inputs).map (fun last =>
      (last.completed, last.visited, last.streaming.stream.current)) =
        some (true, [1, 2, 3], some (.newFinalized 3)) := by
    decide +kernel
  obtain ⟨last, reached, isLast⟩ := Option.map_eq_some_iff.mp result
  simp only [Prod.mk.injEq] at isLast
  obtain ⟨completed, visited, current⟩ := isLast
  refine ⟨last, reached, completed, visited, current, covers_of_regular ?_ ?_ rfl compacted rfl ?_ reached⟩
  · refine ⟨by decide, by decide, ?_, nofun⟩
    rintro segmented ⟨⟩
    refine ⟨2, rfl, ?_⟩
    rintro grouped ⟨⟩
    exact ⟨1, rfl, by decide⟩
  · rintro segmented ⟨⟩
    decide
  · have checked : Runs.checks (SegmentTick.step headers) noticesFailure started inputs = true := by decide +kernel
    refine .of_checks ?_ checked
    rintro tick (_ | move) notices
    · cases notices
    · cases move <;> simp_all [noticesFailure, SegmentTick.Regular]

end Starkstream
