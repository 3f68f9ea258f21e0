import Starkstream.Chain.ReorgWalk
import Starkstream.ObjectStore.Envelope

/-! # Recovering from a deep reorg

A reorg below the recent segment is repaired by hand: `canon recover` restores a
builder from the last completed segment, adds the canonical blocks of the recent one
and shrinks it to the new head, which lies in the completed segment.  Of the recent
segment only the hashes of its blocks are read.  What was recorded in it about blocks
removed earlier is not in the output, and a client that holds one of those blocks can
not be reconnected any more.
-/

namespace Starkstream

open Std (ExtTreeMap)
open CanonicalChainBuilder

namespace Envelope.CanonCommand

/-- The loop over the blocks of the recent segment; `number` and `parent` are those of
    the next block. -/
def growRecent : Nat → Hash → List CanonicalBlock → CanonicalChainBuilder →
    Outcome StarknetError CanonicalChainBuilder
  | _, _, [], builder => .ok builder
  | number, parent, block :: rest, builder =>
    match builder.grow ⟨number, block.hash, parent⟩ with
    | (.ok (), grown) => growRecent (number + 1) block.hash rest grown
    | (.error fault, _) =>
      Outcome.changeContext {} ["failed to grow at block " ++ toString number] (.error fault)

/-- `CanonCommand::Recover`, from the segments that were read to the one that is
    written. -/
def recover (completed recent : CanonicalChainSegment) (newHead : Cursor) :
    Outcome StarknetError CanonicalChainSegment :=
  let completedFirst := completed.info.firstBlock.number
  let completedLast := completed.info.lastBlock.number
  if newHead.number < completedFirst ∨ newHead.number > completedLast then
    Outcome.fail {}
      ["new head cursor must be in the completed segment",
        "completed segment range: " ++ toString completedFirst ++ " - " ++ toString completedLast,
        "new head: " ++ toString newHead.number]
  else do
    let grown ← growRecent recent.info.firstBlock.number completed.info.lastBlock.hash recent.canonical
      (restoreFromSegment completed)
    let (removed, shrunk) := grown.shrink newHead
    let _ ← removed.changeContext {} ["failed to shrink to new head"]
    shrunk.currentSegment.changeContext {} ["failed to get final segment"]

end Envelope.CanonCommand

/-! ## Following reorgs in stored segments -/

/-- The recent segment and the completed ones below it. -/
structure StoredChain where
  earlier : List CanonicalChainSegment
  recent : CanonicalChainSegment

namespace StoredChain

def segmentFor (chain : StoredChain) (number : Nat) : Option CanonicalChainSegment :=
  if chain.recent.info.firstBlock.number ≤ number then some chain.recent
  else chain.earlier.find? (·.covers number)

def reconnect (chain : StoredChain) (cursor : Cursor) : Option (ChainOutcome ReconnectAction) :=
  (chain.segmentFor cursor.number).map (·.reconnect cursor)

/-- Reconnect and move to the reorg target until told to continue. -/
def walk (chain : StoredChain) : Nat → Cursor → ChainRun.WalkEnd
  | 0, _ => .outOfFuel
  | fuel + 1, cursor =>
    match chain.reconnect cursor with
    | some (.ok .continue) => .stopped cursor
    | some (.ok (.offlineReorg target)) => walk chain fuel target
    | some (.ok .unknown) => .unknown
    | some (.error _) => .failed
    | none => .noSegment

def Canonical (chain : StoredChain) (cursor : Cursor) : Prop :=
  (chain.segmentFor cursor.number).map (·.canonicalAt cursor.number) = some (.ok cursor)

/-- Following the reorgs from the cursor ends at a canonical block not above `head`. -/
def Reconnects (chain : StoredChain) (head cursor : Cursor) : Prop :=
  ∃ fuel final, chain.walk fuel cursor = .stopped final ∧ chain.Canonical final ∧ final.number ≤ head.number

section
variable {run : ChainRun} {state : Building} (builder : run.builder = .building state)
include builder

theorem segmentFor_run (number : Nat) :
    (StoredChain.mk run.taken state.snapshot).segmentFor number = run.segmentFor number := by
  rw [ChainRun.segmentFor, builder]
  rfl

theorem canonical_run (cursor : Cursor) :
    (StoredChain.mk run.taken state.snapshot).Canonical cursor ↔ run.Canonical cursor := by
  rw [Canonical, segmentFor_run builder]
  rfl

theorem walk_run (fuel : Nat) (cursor : Cursor) :
    (StoredChain.mk run.taken state.snapshot).walk fuel cursor = (run.reorgWalk fuel cursor).2 := by
  induction fuel generalizing cursor with
  | zero => rfl
  | succ fuel ih =>
    have same : (StoredChain.mk run.taken state.snapshot).reconnect cursor = run.reconnect cursor := by
      rw [reconnect, segmentFor_run builder]
      rfl
    rw [walk, ChainRun.reorgWalk, same]
    cases run.reconnect cursor with
    | none => rfl
    | some outcome =>
      cases outcome with
      | error => rfl
      | ok action =>
        cases action with
        | «continue» | unknown => rfl
        | offlineReorg target => exact ih target

end

end StoredChain

variable {segment : CanonicalChainSegment}

namespace CanonicalChainSegment

def Holds (segment : CanonicalChainSegment) (cursor : Cursor) : Prop :=
  segment.canonicalAt cursor.number = .ok cursor

/-- The cursor is recorded as removed, at a block or in the extra reorgs. -/
def Records (segment : CanonicalChainSegment) (cursor : Cursor) : Prop :=
  (∃ offset block, segment.canonical[offset]? = some block ∧
    cursor.number = segment.info.firstBlock.number + offset ∧ cursor.hash ∈ block.reorgs) ∨
  ∃ extra ∈ segment.extraReorgs, cursor.number = extra.blockNumber ∧ cursor.hash ∈ extra.reorgs

/-- A segment as `take_segment` returns it. -/
structure Closed (segment : CanonicalChainSegment) : Prop where
  range : segment.info.firstBlock.number + segment.canonical.length = segment.info.lastBlock.number + 1
  firstHash : (segment.canonical[0]?).map (·.hash) = some segment.info.firstBlock.hash
  lastHash : (segment.canonical[segment.info.lastBlock.number - segment.info.firstBlock.number]?).map (·.hash) =
    some segment.info.lastBlock.hash
  noExtra : segment.extraReorgs = []

theorem Closed.ordered (closed : segment.Closed) : segment.info.firstBlock.number ≤ segment.info.lastBlock.number := by
  have range := closed.range
  obtain ⟨_, blockAt, -⟩ := Option.map_eq_some_iff.mp closed.firstHash
  have inside := (List.getElem?_eq_some_iff.mp blockAt).1
  omega

end CanonicalChainSegment

/-! ## The segments taken from a builder lie side by side -/

inductive SideBySide : List CanonicalChainSegment → Nat → Prop where
  | nil (next : Nat) : SideBySide [] next
  | concat {taken : List CanonicalChainSegment} {segment : CanonicalChainSegment} {next : Nat} :
      SideBySide taken segment.info.firstBlock.number → segment.Closed →
        segment.info.lastBlock.number + 1 = next → SideBySide (taken ++ [segment]) next

variable {taken : List CanonicalChainSegment}

namespace SideBySide

theorem last {next} (tiled : SideBySide (taken ++ [segment]) next) :
    SideBySide taken segment.info.firstBlock.number ∧ segment.Closed ∧
      segment.info.lastBlock.number + 1 = next := by
  generalize listed : taken ++ [segment] = segments at tiled
  cases tiled with
  | nil => exact absurd listed (by simp)
  | concat before closed isNext =>
    obtain ⟨rfl, single⟩ := List.append_inj' listed rfl
    cases single
    exact ⟨before, closed, isNext⟩

theorem covers_lt {next} (tiled : SideBySide taken next) (member : segment ∈ taken) {number}
    (covers : segment.covers number = true) : number < next := by
  induction tiled with
  | nil => cases member
  | concat before closed isNext ih =>
    have ordered := closed.ordered
    rcases List.mem_append.mp member with old | new
    · have below := ih old
      omega
    · obtain rfl := List.mem_singleton.mp new
      obtain ⟨-, _⟩ := (segment.covers_iff number).mp covers
      omega

end SideBySide

variable {state : Building}

theorem Building.takenSegment_closed (wf : state.WellFormed) {size lastHash} (positive : 0 < size)
    (inside : size < state.canonical.length) (lastAt : state.canonical[size - 1]? = some lastHash) :
    (state.takenSegment size lastHash).Closed where
  range := by
    simp only [takenSegment, segmentBlocks_length, List.length_take]
    omega
  firstHash := by
    have firstHash := wf.firstHash
    rw [hashAt, Numbered.get_base] at firstHash
    simp only [takenSegment, segmentBlocks_get, List.getElem?_take, if_pos positive, firstHash]
    rfl
  lastHash := by
    have position : state.info.firstBlock.number + size - 1 - state.info.firstBlock.number = size - 1 := by omega
    simp only [takenSegment, position, segmentBlocks_get, List.getElem?_take, if_pos (Nat.sub_one_lt_of_lt positive),
      lastAt]
    rfl
  noExtra := rfl

namespace ChainRun

variable {offered : BlockInfo → Prop} {run next : ChainRun}

/-- The segments taken so far end where the builder begins, and only blocks that were
    accepted are recorded as removed. -/
def Tidy (run : ChainRun) : Prop :=
  ∀ state whole, run.builder = .building state → run.unsplit = .building whole →
    SideBySide run.taken state.info.firstBlock.number ∧
      ∀ cursor target, whole.targetOf cursor = some target → ∃ block ∈ run.grown, block.cursor = cursor

theorem start_tidy : start.Tidy := by
  intro state whole builder
  cases builder

theorem Tidy.step (tidy : run.Tidy) (sound : run.Sound offered)
    (nonzero : ∀ block, offered block → block.hash.isZero = false) {op} (stepped : run.step op = some next) :
    next.Tidy := by
  obtain ⟨offeredAll, rfl | ⟨state, whole, splitting, recorded⟩⟩ := sound
  · rcases step_start stepped with rfl | ⟨block, rfl, rfl⟩
    · exact tidy
    · intro state whole builder unsplit
      cases builder
      cases unsplit
      refine ⟨.nil _, fun cursor target known => ?_⟩
      simp [Building.targetOf, Building.single] at known
  · obtain ⟨tiled, removed⟩ := tidy state whole splitting.builder splitting.unsplit
    have split := splitting.split
    have lastNonzero := recorded.last_nonzero split (fun block member => nonzero block (offeredAll block member))
    rcases splitting.step_cases lastNonzero stepped with
      rfl | ⟨-, rfl, number, -, rfl⟩ | ⟨newHead, rfl, -, canonical, rfl⟩ |
      ⟨size, lastHash, nextHash, rfl, positive, inside, nextAt, lastAt, rfl⟩
    · exact tidy
    · intro after wholeAfter builder unsplit
      cases builder
      cases unsplit
      refine ⟨tiled, fun cursor target known => ?_⟩
      obtain ⟨old, member, same⟩ := removed cursor target known
      exact ⟨old, List.mem_append_left _ member, same⟩
    · intro after wholeAfter builder unsplit
      cases builder
      cases unsplit
      have lower := (split.stateWf.hashAt_range canonical).1
      refine ⟨tiled, fun cursor target known => ?_⟩
      rw [Building.shrunk_targetOf newHead cursor (split.cut.trans lower)] at known
      split_ifs at known with isRemoved
      · exact recorded.accepted _ _ isRemoved.2
      · exact removed cursor target known
    · intro after wholeAfter builder unsplit
      cases builder
      cases splitting.unsplit.symm.trans unsplit
      have next : (state.takenSegment size lastHash).info.lastBlock.number + 1 =
          (state.remaining size lastHash nextHash).info.firstBlock.number := by
        simp only [Building.takenSegment, Building.remaining]
        omega
      exact ⟨.concat tiled (Building.takenSegment_closed split.stateWf positive inside lastAt) next, removed⟩

structure Kept (offered : BlockInfo → Prop) (run : ChainRun) : Prop where
  sound : run.Sound offered
  tidy : run.Tidy

theorem Kept.reached {ops} (nonzero : ∀ block, .grow block ∈ ops → block.hash.isZero = false)
    (reached : Runs.run step start ops = some run) : run.Kept fun block => .grow block ∈ ops := by
  refine Runs.run_invariant ?_ ⟨start_sound, start_tidy⟩ reached
  intro op member before after kept stepped
  exact ⟨kept.sound.step nonzero (fun block same => same ▸ member) stepped, kept.tidy.step kept.sound nonzero stepped⟩

end ChainRun

/-! ## The chain up to the completed segment -/

/-- The builder that is restored from the segment. -/
def CanonicalChainSegment.restored (segment : CanonicalChainSegment) : Building :=
  { previousSegment := segment.previousSegment
    info := segment.info
    canonical := segment.canonical.map (·.hash)
    reorgs := restoreReorgs segment.info.firstBlock.number segment.canonical ∅ }

theorem CanonicalChainSegment.restored_hashAt (segment : CanonicalChainSegment) (number : Nat) :
    segment.restored.hashAt number =
      (Numbered.get segment.info.firstBlock.number segment.canonical number).map (·.hash) :=
  Numbered.get_map _ _ _ _

/-- The unsplit chain, cut off behind the segment, with what is recorded up to there. -/
def Building.upTo (whole : Building) (segment : CanonicalChainSegment) : Building :=
  { previousSegment := whole.previousSegment
    info := ⟨whole.info.firstBlock, segment.info.lastBlock⟩
    canonical := whole.canonical.take (segment.info.lastBlock.number + 1 - whole.info.firstBlock.number)
    reorgs := restoreReorgs segment.info.firstBlock.number segment.canonical
      (whole.reorgs.filter fun number _ => number < segment.info.firstBlock.number) }

/-- The last segment taken from a chain. -/
structure LastTaken (earlier : List CanonicalChainSegment) (completed : CanonicalChainSegment)
    (state whole : Building) : Prop where
  split : Splits (earlier ++ [completed]) state whole
  tiled : SideBySide earlier completed.info.firstBlock.number
  closed : completed.Closed
  next : completed.info.lastBlock.number + 1 = state.info.firstBlock.number

variable {completed : CanonicalChainSegment} {whole : Building} {earlier : List CanonicalChainSegment}

namespace LastTaken

variable {state : Building} (last : LastTaken earlier completed state whole)
include last

theorem blockAt_eq {number} (lower : completed.info.firstBlock.number ≤ number)
    (upper : number ≤ completed.info.lastBlock.number) :
    completed.canonical[number - completed.info.firstBlock.number]? = whole.blockAt number :=
  (last.split.faithful completed (by simp) number ((completed.covers_iff number).mpr ⟨lower, upper⟩)).2.2

theorem first_le : whole.info.firstBlock.number ≤ completed.info.firstBlock.number :=
  (last.split.faithful completed (by simp) _
    ((completed.covers_iff _).mpr ⟨le_rfl, last.closed.ordered⟩)).1

theorem last_lt : completed.info.lastBlock.number < whole.info.lastBlock.number := by
  have ordered := last.split.stateWf.first_le_last
  have next := last.next
  have isLast := congrArg Cursor.number last.split.last
  omega

theorem lastHash : whole.hashAt completed.info.lastBlock.number = some completed.info.lastBlock.hash := by
  have lastHash := last.closed.lastHash
  rw [last.blockAt_eq last.closed.ordered le_rfl, Building.blockAt, Option.map_map] at lastHash
  obtain ⟨_, found, same⟩ := Option.map_eq_some_iff.mp lastHash
  rw [found]
  exact congrArg some same

theorem upTo_hashAt (number : Nat) : (whole.upTo completed).hashAt number =
    if number ≤ completed.info.lastBlock.number then whole.hashAt number else none := by
  have first := last.first_le
  have ordered := last.closed.ordered
  simp only [Building.hashAt, Building.upTo, Numbered.get_take]
  congr 1
  rw [eq_iff_iff]
  omega

theorem upTo_reorgs (number : Nat) : (whole.upTo completed).reorgs[number]? =
    if completed.info.firstBlock.number ≤ number ∧ number ≤ completed.info.lastBlock.number then
      some (whole.reorgs.getD number ∅)
    else if number < completed.info.firstBlock.number then whole.reorgs[number]? else none := by
  have range := last.closed.range
  rw [Building.upTo, restoreReorgs_get]
  by_cases inside : completed.info.firstBlock.number ≤ number ∧ number ≤ completed.info.lastBlock.number
  · rw [if_pos (by omega), if_pos inside, last.blockAt_eq inside.1 inside.2]
    obtain ⟨_, found⟩ := last.split.wholeWf.hashAt_some (last.first_le.trans inside.1)
      (inside.2.trans last.last_lt.le)
    rw [Building.blockAt, found]
    rfl
  · rw [if_neg (by omega), if_neg inside]
    rw [ExtTreeMap.getElem?_filter']
    by_cases below : number < completed.info.firstBlock.number
    · rw [if_pos below]
      cases whole.reorgs[number]? with
      | none => rfl
      | some => simp [below]
    · simp [below]

theorem upTo_targetOf (cursor : Cursor) : (whole.upTo completed).targetOf cursor =
    if cursor.number ≤ completed.info.lastBlock.number then whole.targetOf cursor else none := by
  have ordered := last.closed.ordered
  rw [Building.targetOf, last.upTo_reorgs, Building.targetOf]
  by_cases upper : cursor.number ≤ completed.info.lastBlock.number
  · by_cases lower : completed.info.firstBlock.number ≤ cursor.number
    · rw [if_pos ⟨lower, upper⟩, if_pos upper, Option.bind_some, ExtTreeMap.getD_eq_getD_getElem?]
      cases whole.reorgs[cursor.number]? with
      | none => simp
      | some => rfl
    · rw [if_neg fun both => lower both.1, if_pos (not_le.mp lower), if_pos upper]
  · rw [if_neg fun both => upper both.2, if_neg (by omega), if_neg upper, Option.bind_none]

theorem upTo_wellFormed : (whole.upTo completed).WellFormed := by
  have first := last.first_le
  have ordered := last.closed.ordered
  have lower := last.last_lt
  have range := last.split.wholeWf.range
  have length : (whole.upTo completed).canonical.length =
      completed.info.lastBlock.number + 1 - whole.info.firstBlock.number := by
    simp only [Building.upTo, List.length_take]
    omega
  refine ⟨?_, ?_, ?_, ?_, ?_⟩
  · rw [length]
    simp only [Building.upTo]
    omega
  · exact List.length_pos_iff.mp (by omega)
  · rw [last.upTo_hashAt]
    exact (if_pos (first.trans ordered)).trans last.split.wholeWf.firstHash
  · rw [last.upTo_hashAt]
    exact (if_pos le_rfl).trans last.lastHash
  · intro number map found
    rw [last.upTo_reorgs] at found
    split_ifs at found with inside below
    · exact first.trans inside.1
    · exact last.split.wholeWf.keys number map found

theorem restored_hashAt {number} (lower : completed.info.firstBlock.number ≤ number) :
    completed.restored.hashAt number = (whole.upTo completed).hashAt number := by
  have range := last.closed.range
  rw [last.upTo_hashAt, completed.restored_hashAt, Numbered.get_of_le _ lower]
  by_cases upper : number ≤ completed.info.lastBlock.number
  · rw [if_pos upper, last.blockAt_eq lower upper, Building.blockAt, Option.map_map]
    exact Option.map_id'
  · rw [if_neg upper, List.getElem?_eq_none (by omega), Option.map_none]

theorem restored_wellFormed : completed.restored.WellFormed := by
  have ordered := last.closed.ordered
  refine ⟨?_, ?_, ?_, ?_, ?_⟩
  · simpa [CanonicalChainSegment.restored] using last.closed.range
  · intro empty
    have firstHash := last.closed.firstHash
    rw [List.map_eq_nil_iff.mp empty] at firstHash
    cases firstHash
  · rw [completed.restored_hashAt]
    exact (congrArg _ (Numbered.get_base _ _)).trans last.closed.firstHash
  · rw [completed.restored_hashAt]
    exact (congrArg _ (Numbered.get_of_le _ ordered)).trans last.closed.lastHash
  · intro number map found
    simp only [CanonicalChainSegment.restored, restoreReorgs_get] at found
    split_ifs at found with inside
    · exact inside.1
    · simp at found

theorem restored_split : Splits earlier completed.restored (whole.upTo completed) where
  stateWf := last.restored_wellFormed
  wholeWf := last.upTo_wellFormed
  cut := last.first_le
  last := rfl
  hashes _ lower := last.restored_hashAt lower
  reorgs number lower := by
    have isFirst : completed.info.firstBlock.number ≤ number := lower
    rw [CanonicalChainSegment.restored, Building.upTo, restoreReorgs_get, restoreReorgs_get,
      ExtTreeMap.getElem?_filter']
    simp [not_lt.mpr isFirst]
  covered number lower upper := by
    have ordered := last.closed.ordered
    have isBelow : number < completed.info.firstBlock.number := upper
    have next := last.next
    obtain ⟨segment, member, covers⟩ := last.split.covered number lower (by omega)
    rcases List.mem_append.mp member with old | new
    · exact ⟨segment, old, covers⟩
    · obtain rfl := List.mem_singleton.mp new
      obtain ⟨_, -⟩ := (segment.covers_iff number).mp covers
      omega
  faithful segment member number covers := by
    have below : number < completed.info.firstBlock.number := last.tiled.covers_lt member covers
    have ordered := last.closed.ordered
    obtain ⟨lower, -, block⟩ := last.split.faithful segment (List.mem_append_left _ member) number covers
    refine ⟨lower, below, block.trans ?_⟩
    rw [Building.blockAt, Building.blockAt, last.upTo_hashAt, if_pos (by omega),
      ExtTreeMap.getD_eq_getD_getElem?, ExtTreeMap.getD_eq_getD_getElem?, last.upTo_reorgs, if_neg (by omega),
      if_pos below]

end LastTaken

variable {blocks : List BlockInfo}

/-- A path of parent links below a number uses blocks below that number only. -/
theorem Ancestor.below {limit ancestor child} (path : Ancestor blocks ancestor child) (low : child.number ≤ limit) :
    Ancestor (blocks.filter fun block => block.number ≤ limit) ancestor child := by
  induction path with
  | refl => exact .refl
  | tail rest link ih =>
    have step := link.number
    obtain ⟨block, member, isChild, isParent⟩ := link
    have blockLow : block.number ≤ limit := (congrArg Cursor.number isChild).trans_le low
    exact (ih (by omega)).tail
      ⟨block, List.mem_filter.mpr ⟨member, decide_eq_true blockLow⟩, isChild, isParent⟩

/-- What is recorded about the blocks up to the end of the segment is complete. -/
theorem LastTaken.recorded (last : LastTaken earlier completed state whole) (recorded : Recorded blocks whole) :
    Recorded (blocks.filter fun block => block.number ≤ completed.info.lastBlock.number)
      (whole.upTo completed) := by
  refine ⟨?_, ?_, ?_⟩
  · intro number hash found
    rw [last.upTo_hashAt, Option.ite_none_right_eq_some] at found
    obtain ⟨block, member, same⟩ := recorded.accepted number hash found.2
    have low : block.number ≤ completed.info.lastBlock.number := (congrArg Cursor.number same).trans_le found.1
    exact ⟨block, List.mem_filter.mpr ⟨member, decide_eq_true low⟩, same⟩
  · intro number hash next found foundNext
    rw [last.upTo_hashAt, Option.ite_none_right_eq_some] at found foundNext
    obtain ⟨block, member, isChild, isParent⟩ := recorded.linked number hash next found.2 foundNext.2
    have low : block.number ≤ completed.info.lastBlock.number :=
      (congrArg Cursor.number isChild).trans_le foundNext.1
    exact ⟨block, List.mem_filter.mpr ⟨member, decide_eq_true low⟩, isChild, isParent⟩
  · intro block member
    obtain ⟨isBlock, isLow⟩ := List.mem_filter.mp member
    have low : block.number ≤ completed.info.lastBlock.number := of_decide_eq_true isLow
    rw [last.upTo_hashAt, if_pos low, last.upTo_targetOf]
    rcases recorded.target block isBlock with canonical | ⟨target, known, lower, ⟨was, wasMember, same⟩, path⟩
    · exact .inl canonical
    · have wasLow : was.number ≤ completed.info.lastBlock.number := by
        have wasNumber : was.number = target.number := congrArg Cursor.number same
        omega
      exact .inr ⟨target, (if_pos low).trans known, lower,
        ⟨was, List.mem_filter.mpr ⟨wasMember, decide_eq_true wasLow⟩, same⟩, path.below low⟩

/-! ## Adding the blocks of the recent segment -/

/-- The blocks with the given hashes, on top of `last`. -/
def blocksOn (last : Cursor) : List Hash → List BlockInfo
  | [] => []
  | hash :: rest => ⟨last.number + 1, hash, last.hash⟩ :: blocksOn ⟨last.number + 1, hash⟩ rest

theorem hash_mem_of_blocksOn {last hashes block} (member : block ∈ blocksOn last hashes) : block.hash ∈ hashes := by
  induction hashes generalizing last with
  | nil => cases member
  | cons hash rest ih =>
    rcases List.mem_cons.mp member with rfl | later
    · exact List.mem_cons_self
    · exact List.mem_cons_of_mem _ (ih later)

theorem exists_blocksOn {last} {hashes : List Hash} {i hash} (found : hashes[i]? = some hash) :
    ∃ block ∈ blocksOn last hashes, block.cursor = ⟨last.number + 1 + i, hash⟩ := by
  induction hashes generalizing last i with
  | nil => cases found
  | cons first rest ih =>
    cases i with
    | zero =>
      cases found
      exact ⟨_, List.mem_cons_self, rfl⟩
    | succ i =>
      obtain ⟨block, member, same⟩ := @ih ⟨last.number + 1, first⟩ i found
      refine ⟨block, List.mem_cons_of_mem _ member, same.trans ?_⟩
      rw [Nat.add_right_comm, Nat.add_assoc]

namespace Building

/-- The builder after blocks with the given hashes are added. -/
def extended (state : Building) : List Hash → Building
  | [] => state
  | hash :: rest => (state.grown ⟨state.info.lastBlock.number + 1, hash, state.info.lastBlock.hash⟩).extended rest

theorem extended_first (state : Building) (hashes : List Hash) :
    (state.extended hashes).info.firstBlock = state.info.firstBlock := by
  induction hashes generalizing state with
  | nil => rfl
  | cons hash rest ih => exact ih _

theorem extended_canonical (state : Building) (hashes : List Hash) :
    (state.extended hashes).canonical = state.canonical ++ hashes := by
  induction hashes generalizing state with
  | nil => exact (List.append_nil _).symm
  | cons hash rest ih =>
    rw [extended, ih, grown, List.append_assoc]
    rfl

theorem extended_reorgs (state : Building) (hashes : List Hash) :
    (state.extended hashes).reorgs = state.reorgs := by
  induction hashes generalizing state with
  | nil => rfl
  | cons hash rest ih => exact ih _

theorem extended_hashAt {state : Building} (wf : state.WellFormed) (hashes : List Hash) (number : Nat) :
    (state.extended hashes).hashAt number =
      if number ≤ state.info.lastBlock.number then state.hashAt number
      else hashes[number - (state.info.lastBlock.number + 1)]? := by
  have range := wf.range
  rw [hashAt, extended_first, extended_canonical, hashAt]
  by_cases below : number < state.info.firstBlock.number
  · rw [Numbered.get_below _ below, if_pos (by omega), Numbered.get_below _ below]
  · rw [Numbered.get_of_le _ (not_lt.mp below), Numbered.get_of_le _ (not_lt.mp below)]
    by_cases old : number ≤ state.info.lastBlock.number
    · rw [if_pos old, List.getElem?_append_left (by omega)]
    · rw [if_neg old, List.getElem?_append_right (by omega)]
      congr 1
      omega

end Building

theorem Splits.extended (split : Splits taken state whole) (hashes : List Hash) :
    Splits taken (state.extended hashes) (whole.extended hashes) := by
  induction hashes generalizing state whole with
  | nil => exact split
  | cons hash rest ih =>
    rw [Building.extended, Building.extended, ← split.last]
    exact ih (split.grown rfl)

namespace Recorded

variable (recorded : Recorded blocks whole) (wf : whole.WellFormed)
include recorded wf

theorem extended (hashes : List Hash) :
    Recorded (blocks ++ blocksOn whole.info.lastBlock hashes) (whole.extended hashes) := by
  induction hashes generalizing blocks whole with
  | nil =>
    rw [blocksOn, List.append_nil]
    exact recorded
  | cons hash rest ih =>
    have isNext : (BlockInfo.mk (whole.info.lastBlock.number + 1) hash whole.info.lastBlock.hash).number =
        whole.info.lastBlock.number + 1 := rfl
    have grown := ih (recorded.grown wf isNext rfl) (wf.grown isNext)
    rw [List.append_assoc] at grown
    exact grown

theorem shrinkTo {newHead : Cursor} (canonical : whole.hashAt newHead.number = some newHead.hash) :
    Recorded blocks (whole.shrinkTo newHead) := by
  unfold Building.shrinkTo
  split_ifs
  · exact recorded
  · exact recorded.shrunk wf canonical

end Recorded

namespace Envelope.CanonCommand

theorem growRecent_eq (state : Building) (blocks : List CanonicalBlock) :
    growRecent (state.info.lastBlock.number + 1) state.info.lastBlock.hash blocks (.building state) =
      .ok (.building (state.extended (blocks.map (·.hash)))) := by
  induction blocks generalizing state with
  | nil => rfl
  | cons block rest ih =>
    have allowed : canGrow (.building state)
        ⟨state.info.lastBlock.number + 1, block.hash, state.info.lastBlock.hash⟩ = true := by
      simp [canGrow]
    rw [growRecent, grow_allowed allowed]
    exact ih (state.grown ⟨state.info.lastBlock.number + 1, block.hash, state.info.lastBlock.hash⟩)

end Envelope.CanonCommand

/-! ## The output -/

def recovered (completed : CanonicalChainSegment) (state : Building) (newHead : Cursor) : Building :=
  (completed.restored.extended state.canonical).shrinkTo newHead

/-- The blocks that the output knows: the accepted ones up to the end of the completed
    segment, and the canonical ones behind it. -/
def keptBlocks (blocks : List BlockInfo) (completed : CanonicalChainSegment) (state : Building) : List BlockInfo :=
  (blocks.filter fun block => block.number ≤ completed.info.lastBlock.number) ++
    blocksOn completed.info.lastBlock state.canonical

theorem mem_keptBlocks {block cursor} (member : block ∈ blocks) (isCursor : block.cursor = cursor)
    (upper : cursor.number ≤ completed.info.lastBlock.number) :
    ∃ block ∈ keptBlocks blocks completed state, block.cursor = cursor := by
  have low : block.number ≤ completed.info.lastBlock.number := (congrArg Cursor.number isCursor).trans_le upper
  exact ⟨block, List.mem_append_left _ (List.mem_filter.mpr ⟨member, decide_eq_true low⟩), isCursor⟩

namespace LastTaken

variable {state : Building} (last : LastTaken earlier completed state whole) {newHead : Cursor}
include last

variable {cursor : Cursor}

theorem hashAt_of_holds (holds : completed.Holds cursor) :
    completed.info.firstBlock.number ≤ cursor.number ∧ cursor.number ≤ completed.info.lastBlock.number ∧
      whole.hashAt cursor.number = some cursor.hash := by
  have found : completed.hashAt cursor.number = some cursor.hash := by
    rw [CanonicalChainSegment.hashAt, holds]
    rfl
  have range := last.closed.range
  obtain ⟨lower, _, blockAt, isHash⟩ := CanonicalChainSegment.hashAt_inv found
  have inside := (List.getElem?_eq_some_iff.mp blockAt).1
  have upper : cursor.number ≤ completed.info.lastBlock.number := by omega
  rw [last.blockAt_eq lower upper, Building.blockAt] at blockAt
  obtain ⟨_, hashIs, rfl⟩ := Option.map_eq_some_iff.mp blockAt
  exact ⟨lower, upper, hashIs.trans (congrArg some isHash)⟩

theorem extended_hashAt_head (holds : completed.Holds newHead) :
    (completed.restored.extended state.canonical).hashAt newHead.number = some newHead.hash := by
  obtain ⟨lower, upper, canonical⟩ := last.hashAt_of_holds holds
  rw [Building.extended_hashAt last.restored_wellFormed, last.restored_hashAt lower, last.upTo_hashAt]
  have isUpper : newHead.number ≤ completed.restored.info.lastBlock.number := upper
  rw [if_pos isUpper, if_pos upper, canonical]

theorem recover_eq (holds : completed.Holds newHead) :
    Envelope.CanonCommand.recover completed state.snapshot newHead =
      .ok (recovered completed state newHead).snapshot := by
  have split := last.restored_split.extended state.canonical
  have canonical := last.extended_hashAt_head holds
  obtain ⟨_, _, -⟩ := last.hashAt_of_holds holds
  have grown : Envelope.CanonCommand.growRecent state.snapshot.info.firstBlock.number
      completed.info.lastBlock.hash state.snapshot.canonical (restoreFromSegment completed) =
      .ok (.building (completed.restored.extended state.canonical)) := by
    have loop := Envelope.CanonCommand.growRecent_eq completed.restored state.snapshot.canonical
    rw [show state.snapshot.canonical.map (·.hash) = state.canonical from segmentBlocks_hashes _ _ _] at loop
    rw [Building.snapshot_info, ← last.next]
    exact loop
  obtain ⟨_, shrunk⟩ := Building.shrink_shrinkTo split.stateWf canonical
  rw [Envelope.CanonCommand.recover]
  simp only [grown, bind, Except.bind, shrunk]
  rw [if_neg (by omega)]
  rfl

theorem kept_of_completed (recorded : Recorded blocks whole)
    (removed : ∀ cursor target, whole.targetOf cursor = some target → ∃ block ∈ blocks, block.cursor = cursor)
    (known : completed.Holds cursor ∨ completed.Records cursor) :
    ∃ block ∈ keptBlocks blocks completed state, block.cursor = cursor := by
  rcases known with holds | ⟨offset, _, blockAt, _, isRecorded⟩ | ⟨_, member, -⟩
  · obtain ⟨-, upper, canonical⟩ := last.hashAt_of_holds holds
    obtain ⟨_, member, same⟩ := recorded.accepted _ _ canonical
    exact mem_keptBlocks member same upper
  · have range := last.closed.range
    have inside := (List.getElem?_eq_some_iff.mp blockAt).1
    have upper : cursor.number ≤ completed.info.lastBlock.number := by omega
    have position : cursor.number - completed.info.firstBlock.number = offset := by omega
    rw [← position, last.blockAt_eq (by omega) upper, Building.blockAt] at blockAt
    obtain ⟨_, -, rfl⟩ := Option.map_eq_some_iff.mp blockAt
    obtain ⟨target, isTarget⟩ := Option.isSome_iff_exists.mp (ExtTreeMap.mem_iff_isSome_getElem?.mp isRecorded)
    have known : whole.targetOf cursor = some target := by
      rw [ExtTreeMap.getD_eq_getD_getElem?] at isTarget
      rw [Building.targetOf]
      cases found : whole.reorgs[cursor.number]? with
      | none =>
        rw [found] at isTarget
        simp at isTarget
      | some =>
        rw [found] at isTarget
        exact isTarget
    obtain ⟨_, member, same⟩ := removed cursor target known
    exact mem_keptBlocks member same upper
  · rw [last.closed.noExtra] at member
    cases member

theorem kept_of_recent (blocks : List BlockInfo) (holds : state.snapshot.Holds cursor) :
    ∃ block ∈ keptBlocks blocks completed state, block.cursor = cursor := by
  have canonical := Building.snapshot_canonicalAt_inv last.split.stateWf holds
  obtain ⟨lower, -⟩ := last.split.stateWf.hashAt_range canonical
  rw [Building.hashAt, Numbered.get_of_le _ lower] at canonical
  obtain ⟨block, member, same⟩ := @exists_blocksOn completed.info.lastBlock _ _ _ canonical
  refine ⟨block, List.mem_append_right _ member, same.trans (Cursor.ext ?_ rfl)⟩
  rw [last.next]
  exact Nat.add_sub_cancel' lower

/-- From a block that is kept the output leads to its chain. -/
theorem reconnects (recorded : Recorded blocks whole) (nonzero : ∀ block ∈ blocks, block.hash.isZero = false)
    (holds : completed.Holds newHead) {block} (member : block ∈ keptBlocks blocks completed state) :
    (StoredChain.mk earlier (recovered completed state newHead).snapshot).Reconnects newHead block.cursor := by
  have split := last.restored_split.extended state.canonical
  have canonical := last.extended_hashAt_head holds
  have canonicalWhole : ((whole.upTo completed).extended state.canonical).hashAt newHead.number = some newHead.hash :=
    (split.hashes _ (split.stateWf.hashAt_range canonical).1).symm.trans canonical
  -- the stored segments, as a run that took all of them but the output
  let run : ChainRun :=
    { builder := .building (recovered completed state newHead)
      taken := earlier
      grown := keptBlocks blocks completed state
      unsplit := .building (((whole.upTo completed).extended state.canonical).shrinkTo newHead) }
  have splitting : run.Splitting (recovered completed state newHead)
      (((whole.upTo completed).extended state.canonical).shrinkTo newHead) :=
    ⟨rfl, rfl, split.shrinkTo canonical⟩
  have recordedRun : Recorded run.grown (((whole.upTo completed).extended state.canonical).shrinkTo newHead) :=
    ((last.recorded recorded).extended last.upTo_wellFormed state.canonical).shrinkTo split.wholeWf canonicalWhole
  have nonzeroRun : ∀ block ∈ run.grown, block.hash.isZero = false := by
    intro block member
    rcases List.mem_append.mp member with old | new
    · exact nonzero block (List.mem_filter.mp old).1
    · obtain ⟨i, found⟩ := List.getElem?_of_mem (hash_mem_of_blocksOn new)
      have inWhole : whole.hashAt (state.info.firstBlock.number + i) = some block.hash := by
        rw [← last.split.hashes _ (Nat.le_add_right _ _), Building.hashAt, Numbered.get_base_add]
        exact found
      obtain ⟨accepted, isAccepted, same⟩ := recorded.accepted _ _ inWhole
      have sameHash : accepted.hash = block.hash := congrArg Cursor.hash same
      rw [← sameHash]
      exact nonzero accepted isAccepted
  obtain ⟨_, final, walked, -, -, finalCanonical, -⟩ :=
    ChainRun.walk_stops splitting recordedRun nonzeroRun (block.number + 1) member (Nat.lt_succ_self _)
  have inside := splitting.split.wholeWf.hashAt_range ((splitting.canonical_iff final).mp finalCanonical)
  rw [Building.shrinkTo_last] at inside
  refine ⟨block.number + 1, final, ?_, (@StoredChain.canonical_run run _ rfl final).mpr finalCanonical, inside.2⟩
  rw [@StoredChain.walk_run run _ rfl, walked]

variable (holds : completed.Holds newHead) (above : state.info.firstBlock.number ≤ cursor.number)
  (foreign : state.hashAt cursor.number ≠ some cursor.hash)
include holds above foreign

theorem recovered_targetOf : (recovered completed state newHead).targetOf cursor = none := by
  have next := last.next
  have ordered := last.split.stateWf.first_le_last
  obtain ⟨lower, _, -⟩ := last.hashAt_of_holds holds
  have split := last.restored_split.extended state.canonical
  have notLast : newHead ≠ (completed.restored.extended state.canonical).info.lastBlock := by
    intro same
    have range := split.stateWf.range
    have stateRange := last.split.stateWf.range
    have completedRange := last.closed.range
    rw [← same, Building.extended_first, Building.extended_canonical, List.length_append] at range
    simp only [CanonicalChainSegment.restored, List.length_map] at range
    omega
  have isUpper : ¬cursor.number ≤ completed.restored.info.lastBlock.number := by
    have isLast : completed.restored.info.lastBlock = completed.info.lastBlock := rfl
    rw [isLast]
    omega
  have notCanonical : (completed.restored.extended state.canonical).hashAt cursor.number ≠ some cursor.hash := by
    have isLast : completed.restored.info.lastBlock.number + 1 = state.info.firstBlock.number := next
    rw [Building.extended_hashAt last.restored_wellFormed, if_neg isUpper, isLast, ← Numbered.get_of_le _ above]
    exact foreign
  have first : (completed.restored.extended state.canonical).info.firstBlock.number ≤ newHead.number := by
    rw [Building.extended_first]
    exact lower
  rw [recovered, Building.shrinkTo, if_neg notLast, Building.shrunk_targetOf _ _ first,
    if_neg fun both => notCanonical both.2, Building.targetOf, Building.extended_reorgs]
  have range := last.closed.range
  simp only [CanonicalChainSegment.restored, restoreReorgs_get]
  rw [if_neg (by omega)]
  simp

theorem not_reconnects :
    ¬(StoredChain.mk earlier (recovered completed state newHead).snapshot).Reconnects newHead cursor := by
  have unknown := last.recovered_targetOf holds above foreign
  have next := last.next
  obtain ⟨_, _, -⟩ := last.hashAt_of_holds holds
  have first : (recovered completed state newHead).info.firstBlock = completed.info.firstBlock := by
    rw [recovered, Building.shrinkTo_first, Building.extended_first]
    rfl
  have isLast : (recovered completed state newHead).info.lastBlock = newHead := Building.shrinkTo_last _ _
  have beyond : (recovered completed state newHead).info.lastBlock.number < cursor.number := by
    rw [isLast]
    omega
  intro ⟨fuel, final, walked, _⟩
  cases fuel with
  | zero => cases walked
  | succ =>
    have responsible : (StoredChain.mk earlier (recovered completed state newHead).snapshot).segmentFor
        cursor.number = some (recovered completed state newHead).snapshot := by
      rw [StoredChain.segmentFor]
      simp only [Building.snapshot_info, first]
      rw [if_pos (by omega)]
    rw [StoredChain.walk, StoredChain.reconnect, responsible, Option.map_some, CanonicalChainSegment.reconnect,
      Building.snapshot_info, first, if_neg (by omega), if_pos beyond, Building.snapshot_extra beyond] at walked
    rw [Building.targetOf] at unknown
    cases found : (recovered completed state newHead).reorgs[cursor.number]? with
    | none =>
      rw [found] at walked
      cases walked
    | some =>
      rw [found, Option.bind_some] at unknown
      rw [found] at walked
      simp only [unknown] at walked
      cases walked

end LastTaken

theorem Building.first_le_of_records (wf : state.WellFormed) {cursor} (records : state.snapshot.Records cursor) :
    state.info.firstBlock.number ≤ cursor.number := by
  rcases records with ⟨_, _, -, isNumber, -⟩ | ⟨extra, member, isNumber, -⟩
  · rw [isNumber]
    exact Nat.le_add_right _ _
  · have ordered := wf.first_le_last
    obtain ⟨entry, -, isExtra⟩ := List.mem_filterMap.mp member
    rw [Option.ite_none_right_eq_some] at isExtra
    obtain ⟨_, same⟩ := isExtra
    have isEntry : entry.1 = extra.blockNumber := congrArg ExtraReorg.blockNumber (Option.some.inj same)
    omega

/-- With segments of one builder and a new head in the completed one, the recovery
    succeeds, and it loses no block exactly if the recent segment has recorded no other
    blocks than its canonical ones. -/
theorem recover_reconnects_iff {ops : List BuilderOp} {run : ChainRun} {earlier : List CanonicalChainSegment}
    {completed recent : CanonicalChainSegment} {newHead : Cursor}
    (nonzero : ∀ block, .grow block ∈ ops → block.hash.isZero = false)
    (reached : Runs.run ChainRun.step .start ops = some run) (taken : run.taken = earlier ++ [completed])
    (current : run.builder.currentSegment = .ok recent) (holds : completed.Holds newHead) :
    ∃ output, Envelope.CanonCommand.recover completed recent newHead = .ok output ∧
      ((∀ cursor, completed.Holds cursor ∨ completed.Records cursor ∨ recent.Holds cursor ∨ recent.Records cursor →
        (StoredChain.mk earlier output).Reconnects newHead cursor) ↔
        ∀ cursor, recent.Records cursor → recent.Holds cursor) := by
  obtain ⟨⟨offered, rfl | ⟨state, whole, splitting, recorded⟩⟩, tidy⟩ := ChainRun.Kept.reached nonzero reached
  · simp [ChainRun.start] at taken
  obtain ⟨tiled, removed⟩ := tidy state whole splitting.builder splitting.unsplit
  have split := splitting.split
  rw [taken] at tiled split
  obtain ⟨before, closed, next⟩ := tiled.last
  have last : LastTaken earlier completed state whole := ⟨split, before, closed, next⟩
  rw [splitting.builder, Building.currentSegment_building] at current
  cases current
  refine ⟨_, last.recover_eq holds, ?_, ?_⟩
  · intro reconnects cursor records
    by_contra foreign
    have notCanonical : state.hashAt cursor.number ≠ some cursor.hash := fun canonical =>
      foreign (Building.snapshot_canonicalAt split.stateWf canonical)
    exact last.not_reconnects holds (Building.first_le_of_records split.stateWf records) notCanonical
      (reconnects cursor (.inr (.inr (.inr records))))
  · intro onlyCanonical cursor known
    obtain ⟨block, member, rfl⟩ : ∃ block ∈ keptBlocks run.grown completed state, block.cursor = cursor := by
      rcases known with holdsIt | recordsIt | recentHolds | recentRecords
      · exact last.kept_of_completed recorded removed (.inl holdsIt)
      · exact last.kept_of_completed recorded removed (.inr recordsIt)
      · exact last.kept_of_recent run.grown recentHolds
      · exact last.kept_of_recent run.grown (onlyCanonical cursor recentRecords)
    exact last.reconnects recorded (fun block member => nonzero block (offered block member)) holds member

/-- Block 8 is replaced, and the segment with both is completed before block 9. -/
def replacedBefore : List BuilderOp :=
  [.grow ⟨7, ⟨[1]⟩, ⟨[9]⟩⟩, .grow ⟨8, ⟨[2]⟩, ⟨[1]⟩⟩, .shrink ⟨7, ⟨[1]⟩⟩, .grow ⟨8, ⟨[3]⟩, ⟨[1]⟩⟩,
    .grow ⟨9, ⟨[4]⟩, ⟨[3]⟩⟩, .takeSegment 2]

theorem recover_reconnects_iff_replaced :
    ∃ run completed recent output, Runs.run ChainRun.step .start replacedBefore = some run ∧
      run.taken = [] ++ [completed] ∧ run.builder.currentSegment = .ok recent ∧ completed.Records ⟨8, ⟨[2]⟩⟩ ∧
      Envelope.CanonCommand.recover completed recent ⟨7, ⟨[1]⟩⟩ = .ok output ∧
      (StoredChain.mk [] output).Reconnects ⟨7, ⟨[1]⟩⟩ ⟨8, ⟨[2]⟩⟩ := by
  have nonzero : ∀ block, .grow block ∈ replacedBefore → block.hash.isZero = false := by
    intro block member
    simp [replacedBefore] at member
    rcases member with rfl | rfl | rfl | rfl <;> rfl
  obtain ⟨run, completed, recent, reached, taken, current, holds, records, noBlock, noExtra⟩ :
      ∃ run completed recent, Runs.run ChainRun.step .start replacedBefore = some run ∧
        run.taken = [] ++ [completed] ∧ run.builder.currentSegment = .ok recent ∧ completed.Holds ⟨7, ⟨[1]⟩⟩ ∧
        completed.Records ⟨8, ⟨[2]⟩⟩ ∧ recent.canonical = [⟨⟨[4]⟩, ∅⟩] ∧ recent.extraReorgs = [] :=
    ⟨_, _, _, rfl, rfl, rfl, rfl, .inl ⟨1, _, rfl, rfl, by decide⟩, by decide, by decide⟩
  obtain ⟨output, recovered, iff⟩ := recover_reconnects_iff nonzero reached taken current holds
  refine ⟨run, completed, recent, output, reached, taken, current, records, recovered,
    iff.mpr ?_ _ (.inr (.inl records))⟩
  rintro cursor (⟨offset, block, blockAt, -, isRecorded⟩ | ⟨extra, member, -⟩)
  · rw [noBlock] at blockAt
    obtain rfl := List.mem_singleton.mp (List.mem_of_getElem? blockAt)
    simp at isRecorded
  · rw [noExtra] at member
    cases member

/-- Block 9 is replaced above the completed segment. -/
def replacedAfter : List BuilderOp :=
  [.grow ⟨7, ⟨[1]⟩, ⟨[9]⟩⟩, .grow ⟨8, ⟨[2]⟩, ⟨[1]⟩⟩, .takeSegment 1, .grow ⟨9, ⟨[3]⟩, ⟨[2]⟩⟩,
    .shrink ⟨8, ⟨[2]⟩⟩, .grow ⟨9, ⟨[4]⟩, ⟨[2]⟩⟩]

/-- The recent segment leads from the block that was replaced to block 8, the output of
    the recovery to block 7 answers that it does not know it. -/
theorem recover_forgets_replacedAfter :
    ∃ run completed recent output, Runs.run ChainRun.step .start replacedAfter = some run ∧
      run.taken = [] ++ [completed] ∧ run.builder.currentSegment = .ok recent ∧ completed.Holds ⟨7, ⟨[1]⟩⟩ ∧
      recent.Records ⟨9, ⟨[3]⟩⟩ ∧ recent.reconnect ⟨9, ⟨[3]⟩⟩ = .ok (.offlineReorg ⟨8, ⟨[2]⟩⟩) ∧
      Envelope.CanonCommand.recover completed recent ⟨7, ⟨[1]⟩⟩ = .ok output ∧
      output.reconnect ⟨9, ⟨[3]⟩⟩ = .ok .unknown ∧
      ¬(StoredChain.mk [] output).Reconnects ⟨7, ⟨[1]⟩⟩ ⟨9, ⟨[3]⟩⟩ := by
  obtain ⟨run, completed, recent, output, reached, taken, current, holds, records, before, recovered, first, unknown⟩ :
      ∃ run completed recent output, Runs.run ChainRun.step .start replacedAfter = some run ∧
        run.taken = [] ++ [completed] ∧ run.builder.currentSegment = .ok recent ∧ completed.Holds ⟨7, ⟨[1]⟩⟩ ∧
        recent.Records ⟨9, ⟨[3]⟩⟩ ∧ recent.reconnect ⟨9, ⟨[3]⟩⟩ = .ok (.offlineReorg ⟨8, ⟨[2]⟩⟩) ∧
        Envelope.CanonCommand.recover completed recent ⟨7, ⟨[1]⟩⟩ = .ok output ∧
        output.info.firstBlock.number = 7 ∧ output.reconnect ⟨9, ⟨[3]⟩⟩ = .ok .unknown :=
    ⟨_, _, _, _, rfl, rfl, rfl, rfl, .inl ⟨1, _, rfl, rfl, by decide⟩, by decide, rfl, rfl, by decide⟩
  refine ⟨run, completed, recent, output, reached, taken, current, holds, records, before, recovered, unknown, ?_⟩
  rintro ⟨fuel, final, walked, -⟩
  cases fuel with
  | zero => cases walked
  | succ fuel =>
    have answer : (StoredChain.mk [] output).reconnect ⟨9, ⟨[3]⟩⟩ = some (.ok .unknown) := by
      rw [StoredChain.reconnect, StoredChain.segmentFor]
      simp only [first]
      rw [if_pos (by decide), Option.map_some, unknown]
    rw [StoredChain.walk, answer] at walked
    cases walked

end Starkstream
