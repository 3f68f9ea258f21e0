import Starkstream.Compaction.Archive

/-! # Steps of the compaction services

For each service, what it relies on between two operations, and that an operation
keeps what is stored sound and what the other services rely on.
-/

namespace Starkstream

open BlockStore

/-- A chain view that is not ahead of etcd: it has watermarks that were stored. -/
structure Archive.Shown (start : Nat) (archive : Archive) (view : ChainView) : Prop where
  starting : view.canonical.startingBlock = start
  segmented : ∀ block, view.segmented = some block → block ∈ archive.segmented.values
  grouped : ∀ block, view.grouped = some block → block ∈ archive.grouped.values

theorem Archive.Shown.startingCursor {start} {archive : Archive} {view} (shown : archive.Shown start view) {cursor}
    (answered : view.getStartingCursor.toOption = some cursor) : cursor.number = start :=
  (ChainView.cursorAt_number (toOption_eq_some.mp answered)).trans shown.starting

/-! ## Segments -/

/-- What the segment service relies on before it compacts a segment. -/
def SegmentPhase.Placed (start : Nat) (archive : Archive) : SegmentPhase → Prop
  | .segmented cursor => cursor.number ∈ archive.segmented.values
  | .next first | .gotHead first _ | .compacting first => archive.SegmentedTo start first.number
  | .start | .noSegment | .waiting _ _ | .ended => True

/-- The blocks that were read so far follow each other. -/
structure Archive.Gathers (start : Nat) (archive : Archive) (first : Cursor) (blocks : List (Cursor × Block)) :
    Prop where
  segmentedTo : archive.SegmentedTo start first.number
  numbers : blocks.map (·.1.number) = List.range' first.number blocks.length
  provided : ∀ entry ∈ blocks, entry.2.Provides archive.fragmentInfo

def SegmentStage.Placed (start : Nat) (archive : Archive) : SegmentStage → Prop
  | .deciding phase => phase.Placed start archive
  | .fetching first blocks current => archive.Gathers start first blocks ∧
      current.number = first.number + blocks.length ∧ blocks.length < archive.options.segmentSize
  | .advancing first blocks current => archive.Gathers start first blocks ∧
      current.number + 1 = first.number + blocks.length ∧ 0 < blocks.length ∧
        blocks.length ≤ archive.options.segmentSize
  | .uploading first last left => archive.SegmentedTo start first.number ∧
      last.number + 1 = first.number + archive.options.segmentSize ∧
      (∀ segment ∈ left, segment.data.cursors.map (·.number) =
        List.range' first.number archive.options.segmentSize) ∧
      ∀ name ∈ segmentNames archive.fragmentInfo,
        (∃ segment ∈ left, segment.name = name) ∨ archive.HasObject first.number name

/-! ## Groups -/

def GroupPhase.Placed (start : Nat) (archive : Archive) : GroupPhase → Prop
  | .grouped cursor => cursor.number ∈ archive.grouped.values
  | .next first => archive.GroupedTo start first.number
  | .compacting first => archive.GroupedTo start first.number ∧
      ∃ segmented ∈ archive.segmented.values, first.number + archive.options.blocksInGroup ≤ segmented
  | .start | .noGroup | .waiting _ _ | .ended => True

def GroupStage.Placed (start : Nat) (archive : Archive) : GroupStage → Prop
  | .deciding phase => phase.Placed start archive
  | .fetching first _ => (GroupPhase.compacting first).Placed start archive
  | .recording first => (GroupPhase.compacting first).Placed start archive ∧ archive.GroupAt first.number

/-! ## Pruning -/

def PruneStage.Placed (archive : Archive) : PruneStage → Prop
  | .start => True
  | .gotGrouped grouped | .noPruned grouped | .loop grouped _ | .round grouped _ _ =>
    grouped ∈ archive.grouped.values
  | .deleting grouped current _ keys => grouped ∈ archive.grouped.values ∧ current ≤ grouped ∧
      ∀ key ∈ keys, isListed current key = true

namespace Archive.Grows

variable {before after : Archive} {start : Nat}

variable (grows : Grows before after)
include grows

theorem segmentPhase {phase : SegmentPhase} (sound : phase.Placed start before) : phase.Placed start after := by
  cases phase with
  | segmented => exact grows.segmented _ sound
  | next | gotHead | compacting => exact grows.segmentedTo sound
  | start | noSegment | waiting | ended => trivial

theorem gathers {first blocks} (gathers : before.Gathers start first blocks) : after.Gathers start first blocks := by
  refine ⟨grows.segmentedTo gathers.segmentedTo, gathers.numbers, ?_⟩
  rw [grows.fragmentInfo]
  exact gathers.provided

theorem segmentStage {stage : SegmentStage} (sound : stage.Placed start before) : stage.Placed start after := by
  cases stage with
  | deciding => exact grows.segmentPhase sound
  | fetching | advancing =>
    obtain ⟨gathers, rest⟩ := sound
    refine ⟨grows.gathers gathers, ?_⟩
    rw [grows.options]
    exact rest
  | uploading =>
    obtain ⟨tiled, isLast, numbers, named⟩ := sound
    refine ⟨grows.segmentedTo tiled, ?_, ?_, ?_⟩
    · rw [grows.options]
      exact isLast
    · rw [grows.options]
      exact numbers
    · rw [grows.fragmentInfo]
      exact fun name isName => (named name isName).imp_right (grows.object _ _)

theorem groupPhase {phase : GroupPhase} (sound : phase.Placed start before) : phase.Placed start after := by
  cases phase with
  | grouped => exact grows.grouped _ sound
  | next => exact grows.groupedTo sound
  | compacting =>
    obtain ⟨tiled, segmented, had, bound⟩ := sound
    rw [← grows.options] at bound
    exact ⟨grows.groupedTo tiled, segmented, grows.segmented _ had, bound⟩
  | start | noGroup | waiting | ended => trivial

theorem groupStage {stage : GroupStage} (sound : stage.Placed start before) : stage.Placed start after := by
  cases stage with
  | deciding => exact grows.groupPhase sound
  | fetching first =>
    have compacting : (GroupPhase.compacting first).Placed start before := sound
    exact grows.groupPhase compacting
  | recording => exact ⟨grows.groupPhase sound.1, grows.groupAt _ sound.2⟩

theorem pruneStage {stage : PruneStage} (sound : stage.Placed before) : stage.Placed after := by
  cases stage with
  | start => trivial
  | gotGrouped | noPruned | loop | round => exact grows.grouped _ sound
  | deleting => exact ⟨grows.grouped _ sound.1, sound.2⟩

end Archive.Grows

/-- An operation of a compaction service. -/
structure Archive.Steps (start : Nat) (before after : Archive) : Prop where
  sound : after.Sound start
  grows : Grows before after
  uploads : after.uploads = before.uploads

theorem Archive.Sound.still {start} {archive : Archive} (sound : archive.Sound start) :
    archive.Steps start archive := ⟨sound, .refl archive, rfl⟩

section Steps

variable {start : Nat} {archive after : Archive} {view : ChainView}

theorem SegmentPhase.Placed.proceed {phase next : SegmentPhase} (sound : archive.Sound start)
    (shown : archive.Shown start view) (before : phase.Placed start archive)
    (proceeded : phase.proceed view archive.options.segmentSize = some next) : next.Placed start archive := by
  cases phase with
  | start =>
    simp only [SegmentPhase.proceed] at proceeded
    split at proceeded
    · cases proceeded
      trivial
    · cases proceeded
      trivial
    case _ answered =>
      cases proceeded
      exact shown.segmented _ (ChainView.optionalCursor_some answered)
  | noSegment =>
    cases proceeded
    cases answered : view.getStartingCursor.toOption with
    | none => trivial
    | some =>
      have begins : archive.SegmentedTo start start := .nil _ _ _
      exact (shown.startingCursor answered).symm ▸ begins
  | segmented cursor =>
    cases proceeded
    cases following : followingCursor view cursor with
    | none => trivial
    | some =>
      have follows := (sound.segmented _ before).segmentedTo
      rw [← followingCursor_number following] at follows
      exact follows
  | next =>
    cases proceeded
    exact before
  | gotHead =>
    simp only [SegmentPhase.proceed] at proceeded
    split at proceeded
    · cases proceeded
      trivial
    · split_ifs at proceeded <;> obtain rfl := Option.some.inj proceeded
      · exact before
      · trivial
      · trivial
  | compacting | waiting | ended => cases proceeded

variable {blocks : List (Cursor × Block)}

theorem Archive.Gathers.add {first current : Cursor} {block : Block} (gathers : archive.Gathers start first blocks)
    (follows : current.number = first.number + blocks.length) (provides : block.Provides archive.fragmentInfo) :
    archive.Gathers start first (blocks ++ [(current, block)]) := by
  refine ⟨gathers.segmentedTo, ?_, fun entry among => ?_⟩
  · rw [List.map_append, gathers.numbers, List.length_append, List.length_singleton, List.range'_1_concat, ← follows]
    rfl
  · rcases List.mem_append.mp among with old | new
    · exact gathers.provided entry old
    · exact List.mem_singleton.mp new ▸ provides

theorem Archive.Gathers.lastAdded {first} (gathers : archive.Gathers start first blocks) (nonempty : 0 < blocks.length) :
    (lastAdded first blocks).number + 1 = first.number + blocks.length := by
  rcases List.eq_nil_or_concat blocks with rfl | ⟨others, last, rfl⟩
  · cases nonempty
  · have numbers := gathers.numbers
    rw [List.concat_eq_append, List.map_append, List.length_append, List.length_singleton,
      List.range'_1_concat] at numbers
    have isLast : last.1.number = first.number + others.length := by
      simpa using (List.append_inj' numbers rfl).2
    simp [Starkstream.lastAdded, isLast, Nat.add_assoc]

theorem Archive.Gathers.build {first} (gathers : archive.Gathers start first blocks)
    (full : blocks.length = archive.options.segmentSize) {segments rest}
    (built : SegmentBuilder.build {} first blocks = .ok (segments, rest)) :
    (SegmentStage.uploading first (Starkstream.lastAdded first blocks) segments).Placed start archive := by
  have positive : 0 < blocks.length := full ▸ archive.options.segmentPositive
  have nonempty : blocks ≠ [] := List.length_pos_iff.mp positive
  obtain ⟨_, produced⟩ := SegmentBuilder.produced_of_build built
  refine ⟨gathers.segmentedTo, full ▸ gathers.lastAdded positive, fun segment member => ?_, fun name isName => .inl ?_⟩
  · rw [produced.cursors nonempty gathers.provided member, List.map_map, ← full]
    exact gathers.numbers
  · exact produced.named nonempty gathers.provided isName

theorem SegmentStage.step_deciding {phase next}
    (stepped : (SegmentStage.deciding phase).step view archive = some (after, next)) :
    (∃ first, phase = .compacting first ∧ after = archive ∧ next = .fetching first [] first) ∨
    ∃ phase', phase.proceed view archive.options.segmentSize = some phase' ∧ after = archive ∧
      next = .deciding phase' := by
  have proceeds (mapped : (phase.proceed view archive.options.segmentSize).map
      (fun phase' => (archive, SegmentStage.deciding phase')) = some (after, next)) :
      ∃ phase', phase.proceed view archive.options.segmentSize = some phase' ∧ after = archive ∧
        next = .deciding phase' := by
    obtain ⟨phase', proceeded, same⟩ := Option.map_eq_some_iff.mp mapped
    cases same
    exact ⟨phase', proceeded, rfl, rfl⟩
  cases phase with
  | compacting first =>
    cases stepped
    exact .inl ⟨first, rfl, rfl, rfl⟩
  | start | noSegment | segmented | next | gotHead | waiting | ended => exact .inr (proceeds stepped)

theorem SegmentStage.Placed.step {stage next : SegmentStage} (sound : archive.Sound start)
    (shown : archive.Shown start view) (before : stage.Placed start archive)
    (stepped : stage.step view archive = some (after, next)) : archive.Steps start after ∧ next.Placed start after := by
  cases stage with
  | deciding =>
    rcases SegmentStage.step_deciding stepped with ⟨first, rfl, rfl, rfl⟩ | ⟨_, proceeded, rfl, rfl⟩
    · exact ⟨sound.still, ⟨before, rfl, nofun⟩, rfl, CompactionServiceOptions.segmentPositive _⟩
    · exact ⟨sound.still, SegmentPhase.Placed.proceed sound shown before proceeded⟩
  | fetching first blocks current =>
    obtain ⟨gathers, follows, _⟩ := before
    simp only [SegmentStage.step] at stepped
    split at stepped
    case _ block found =>
      cases stepped
      refine ⟨sound.still, gathers.add follows (sound.provided current block found), ?_, ?_, ?_⟩
      · rw [follows, List.length_append, List.length_singleton, Nat.add_assoc]
      · simp
      · rwa [List.length_append, List.length_singleton]
    · cases stepped
      exact ⟨sound.still, trivial⟩
  | advancing =>
    obtain ⟨gathers, follows, _, _⟩ := before
    simp only [SegmentStage.step] at stepped
    split at stepped
    · cases stepped
      exact ⟨sound.still, trivial⟩
    case _ following _ isFollowing =>
      split_ifs at stepped with more
      · cases stepped
        refine ⟨sound.still, gathers, ?_, more⟩
        rw [followingCursor_number isFollowing, follows]
      · split at stepped
        case _ segments rest built =>
          cases stepped
          exact ⟨sound.still, gathers.build (by omega) built⟩
        · cases stepped
          exact ⟨sound.still, trivial⟩
  | uploading first last left =>
    obtain ⟨tiled, isLast, numbers, named⟩ := before
    cases left with
    | nil =>
      cases stepped
      have complete : archive.SegmentAt first.number := by
        intro name isName
        rcases named name isName with ⟨segment, none, -⟩ | has
        · cases none
        · exact has
      exact ⟨⟨sound.putSegmented ⟨_, isLast, tiled, complete⟩, archive.putSegmented_grows _, rfl⟩, trivial⟩
    | cons segment =>
      cases stepped
      have isNumbers := numbers segment List.mem_cons_self
      have grows : Archive.Grows archive (archive.putSegment first segment) := Archive.putSegment_grows isNumbers
      refine ⟨⟨sound.putSegment isNumbers, grows, rfl⟩, grows.segmentedTo tiled, isLast, ?_, fun name isName => ?_⟩
      · exact fun other member => numbers other (List.mem_cons_of_mem _ member)
      · rcases named name isName with ⟨other, member, rfl⟩ | has
        · rcases List.mem_cons.mp member with rfl | later
          · exact .inr (Archive.putSegment_hasObject isNumbers)
          · exact .inl ⟨other, later, rfl⟩
        · exact .inr (grows.object _ _ has)

theorem GroupPhase.Placed.proceed {phase next : GroupPhase} (sound : archive.Sound start)
    (shown : archive.Shown start view) (before : phase.Placed start archive)
    (proceeded : phase.proceed view archive.options.blocksInGroup = some next) : next.Placed start archive := by
  cases phase with
  | start =>
    simp only [GroupPhase.proceed] at proceeded
    split at proceeded
    · cases proceeded
      trivial
    · cases proceeded
      trivial
    case _ answered =>
      cases proceeded
      exact shown.grouped _ (ChainView.optionalCursor_some answered)
  | noGroup =>
    cases proceeded
    cases answered : view.getStartingCursor.toOption with
    | none => trivial
    | some =>
      have begins : archive.GroupedTo start start := .nil _ _ _
      exact (shown.startingCursor answered).symm ▸ begins
  | grouped cursor =>
    cases proceeded
    cases following : followingCursor view cursor with
    | none => trivial
    | some =>
      have follows := (sound.grouped _ before).groupedTo
      rw [← followingCursor_number following] at follows
      exact follows
  | next =>
    simp only [GroupPhase.proceed] at proceeded
    split at proceeded
    · cases proceeded
      trivial
    · cases proceeded
      trivial
    case _ segmented answered =>
      split_ifs at proceeded with enough <;> obtain rfl := Option.some.inj proceeded
      · exact ⟨before, segmented.number, shown.segmented _ (ChainView.optionalCursor_some answered), enough⟩
      · trivial
  | compacting | waiting | ended => cases proceeded

theorem GroupStage.step_deciding {phase next}
    (stepped : (GroupStage.deciding phase).step view archive = some (after, next)) :
    (∃ first, phase = .compacting first ∧ after = archive ∧ next = .fetching first []) ∨
    ∃ phase', phase.proceed view archive.options.blocksInGroup = some phase' ∧ after = archive ∧
      next = .deciding phase' := by
  have proceeds (mapped : (phase.proceed view archive.options.blocksInGroup).map
      (fun phase' => (archive, GroupStage.deciding phase')) = some (after, next)) :
      ∃ phase', phase.proceed view archive.options.blocksInGroup = some phase' ∧ after = archive ∧
        next = .deciding phase' := by
    obtain ⟨phase', proceeded, same⟩ := Option.map_eq_some_iff.mp mapped
    cases same
    exact ⟨phase', proceeded, rfl, rfl⟩
  cases phase with
  | compacting first =>
    cases stepped
    exact .inl ⟨first, rfl, rfl, rfl⟩
  | start | noGroup | grouped | next | waiting | ended => exact .inr (proceeds stepped)

theorem GroupStage.Placed.step {stage next : GroupStage} (sound : archive.Sound start)
    (shown : archive.Shown start view) (before : stage.Placed start archive)
    (stepped : stage.step view archive = some (after, next)) : archive.Steps start after ∧ next.Placed start after := by
  cases stage with
  | deciding =>
    rcases GroupStage.step_deciding stepped with ⟨first, rfl, rfl, rfl⟩ | ⟨_, proceeded, rfl, rfl⟩
    · exact ⟨sound.still, before⟩
    · exact ⟨sound.still, GroupPhase.Placed.proceed sound shown before proceeded⟩
  | fetching first =>
    simp only [GroupStage.step] at stepped
    split_ifs at stepped with more
    · split at stepped <;> obtain ⟨rfl, rfl⟩ := Prod.mk.inj (Option.some.inj stepped)
      · exact ⟨sound.still, before⟩
      · exact ⟨sound.still, trivial⟩
    · split at stepped
      case _ group built =>
        cases stepped
        have grows := archive.putGroup_grows first group
        have compacting : (GroupPhase.compacting first).Placed start archive := before
        refine ⟨⟨sound.putGroup first group, grows, rfl⟩, grows.groupPhase compacting, ?_⟩
        exact ⟨group, ObjectStore.getGroup_putGroup_self _ _ _⟩
      · cases stepped
        exact ⟨sound.still, trivial⟩
  | recording first =>
    cases stepped
    obtain ⟨⟨tiled, segmented, had, _⟩, complete⟩ := before
    have positive : 0 < archive.options.blocksInGroup :=
      Nat.mul_pos archive.options.groupPositive archive.options.segmentPositive
    have isEnd : archive.GroupEnd start (first.number + archive.options.blocksInGroup - 1) :=
      ⟨first.number, by omega, tiled, complete⟩
    exact ⟨⟨sound.putGrouped isEnd ⟨segmented, had, by omega⟩, archive.putGrouped_grows _, rfl⟩, trivial⟩

theorem PruneStage.Placed.step {stage : PruneStage} (view : ChainView) (sound : archive.Sound start)
    (before : stage.Placed archive) :
    archive.Steps start (stage.step view archive).1 ∧ (stage.step view archive).2.Placed (stage.step view archive).1 := by
  cases stage with
  | start =>
    refine ⟨sound.still, ?_⟩
    simp only [PruneStage.step]
    cases isValue : archive.grouped.value with
    | none => trivial
    | some => exact HighWater.value_mem isValue
  | gotGrouped =>
    refine ⟨sound.still, ?_⟩
    simp only [PruneStage.step]
    cases archive.pruned with
    | none | some => exact before
  | noPruned =>
    refine ⟨sound.still, ?_⟩
    simp only [PruneStage.step]
    cases view.getStartingCursor.toOption with
    | none => trivial
    | some => exact before
  | loop =>
    refine ⟨sound.still, ?_⟩
    simp only [PruneStage.step]
    split_ifs
    · exact before
    · trivial
  | round grouped =>
    simp only [PruneStage.step]
    split_ifs with done
    · exact ⟨⟨⟨sound.short, sound.kept, sound.provided, sound.segmented, sound.grouped, sound.ordered⟩,
        ⟨rfl, rfl, fun _ _ => id, fun _ => id, fun _ => id, fun _ => id⟩, rfl⟩, before⟩
    · exact ⟨sound.still, before, by omega, fun key listed => (List.mem_filter.mp listed).2⟩
  | deleting grouped current left keys =>
    obtain ⟨had, bound, listed⟩ := before
    cases keys with
    | nil => exact ⟨sound.still, had⟩
    | cons key =>
      have isListed := listed key List.mem_cons_self
      refine ⟨⟨sound.delete isListed ⟨grouped, had, bound⟩, Archive.delete_grows isListed, rfl⟩, had, bound, ?_⟩
      exact fun other member => listed other (List.mem_cons_of_mem _ member)

end Steps

end Starkstream
