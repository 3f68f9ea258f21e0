import Starkstream.Chain.WellFormed
import Starkstream.Lib.Runs

/-! # Taking segments off a builder

A run applies `grow`, `shrink` and `take_segment` in any order.  Next to the
builder the state of a run keeps the segments taken so far, and two history
variables that no operation reads: the blocks accepted by `grow`, and the
`unsplit` builder, which had the same blocks added and removed but no segment
taken.

The result of this module is that segmentation is invisible: at every number,
the segment responsible for that number answers as the unsplit chain does.
-/

namespace Starkstream

open Std (ExtTreeMap)
open CanonicalChainBuilder

/-- The snapshot of a builder that has at least one block. -/
def Building.snapshot (state : Building) : CanonicalChainSegment :=
  { previousSegment := state.previousSegment
    info := state.info
    canonical := segmentBlocks state.info.firstBlock.number state.canonical state.reorgs
    extraReorgs := extraReorgs state.info.lastBlock.number state.reorgs }

/-- The hash of the canonical block with the given number. -/
def CanonicalChainSegment.hashAt (segment : CanonicalChainSegment) (number : Nat) : Option Hash :=
  (segment.canonicalAt number).toOption.map (·.hash)

variable {number : Nat}

theorem CanonicalChainSegment.hashAt_inv {segment : CanonicalChainSegment} {hash}
    (found : segment.hashAt number = some hash) :
    segment.info.firstBlock.number ≤ number ∧ ∃ block,
      segment.canonical[number - segment.info.firstBlock.number]? = some block ∧ block.hash = hash := by
  rw [hashAt, canonicalAt] at found
  split_ifs at found with below above
  · simp [Outcome.fail, Except.toOption] at found
  · simp [Outcome.fail, Except.toOption] at found
  · refine ⟨not_lt.mp below, ?_⟩
    rw [CanonicalChainSegment.blockAt] at found
    cases lookup : segment.canonical[number - segment.info.firstBlock.number]? with
    | none => simp [lookup, bind, Except.bind, Except.toOption] at found
    | some block =>
      refine ⟨block, rfl, ?_⟩
      simpa [lookup, bind, Except.bind, pure, Except.pure, Except.toOption] using found

variable {cursor : Cursor} {state : Building}

namespace Building

@[simp] theorem currentSegment_building (state : Building) :
    currentSegment (.building state) = .ok state.snapshot := rfl

@[simp] theorem snapshot_info (state : Building) : state.snapshot.info = state.info := rfl

theorem snapshot_block (inside : state.info.firstBlock.number ≤ number) :
    state.snapshot.canonical[number - state.info.firstBlock.number]? = state.blockAt number := by
  obtain ⟨i, rfl⟩ := Nat.exists_eq_add_of_le inside
  rw [Nat.add_sub_cancel_left, blockAt, hashAt, Numbered.get_base_add]
  exact segmentBlocks_get _ _ _ _

theorem snapshot_blockAt {hash} (inside : state.info.firstBlock.number ≤ number)
    (canonical : state.hashAt number = some hash) :
    state.snapshot.blockAt number = .ok ⟨hash, state.reorgs.getD number ∅⟩ := by
  rw [CanonicalChainSegment.blockAt, snapshot_info, snapshot_block inside, blockAt, canonical]
  rfl

theorem snapshot_extra (above : state.info.lastBlock.number < number) :
    state.snapshot.findExtra number = state.reorgs[number]? :=
  CanonicalChainSegment.findExtra_snapshot state rfl above

theorem snapshot_canonicalAt (wf : state.WellFormed) {hash} (canonical : state.hashAt number = some hash) :
    state.snapshot.canonicalAt number = .ok ⟨number, hash⟩ := by
  obtain ⟨lower, upper⟩ := wf.hashAt_range canonical
  rw [CanonicalChainSegment.canonicalAt, snapshot_info, if_neg (not_lt.mpr lower),
    if_neg (not_lt.mpr upper), snapshot_blockAt lower canonical]
  rfl

theorem snapshot_canonicalAt_inv (wf : state.WellFormed) (found : state.snapshot.canonicalAt number = .ok cursor) :
    state.hashAt number = some cursor.hash := by
  rw [CanonicalChainSegment.canonicalAt, snapshot_info] at found
  by_cases lower : state.info.firstBlock.number ≤ number
  · rw [if_neg (not_lt.mpr lower)] at found
    by_cases upper : number ≤ state.info.lastBlock.number
    · obtain ⟨_, hashAt⟩ := wf.hashAt_some lower upper
      rw [if_neg (not_lt.mpr upper), snapshot_blockAt lower hashAt] at found
      rw [hashAt, ← Except.ok.inj found]
    · rw [if_pos (not_le.mp upper)] at found
      exact absurd found (by simp [Outcome.fail])
  · rw [if_pos (not_le.mp lower)] at found
    exact absurd found (by simp [Outcome.fail])

theorem snapshot_hashAt (wf : state.WellFormed) (number : Nat) :
    state.snapshot.hashAt number = state.hashAt number := by
  rw [CanonicalChainSegment.hashAt]
  cases canonical : state.hashAt number with
  | some =>
    rw [snapshot_canonicalAt wf canonical]
    rfl
  | none =>
    cases found : state.snapshot.canonicalAt number with
    | error => rfl
    | ok =>
      rw [snapshot_canonicalAt_inv wf found] at canonical
      cases canonical

theorem takenSegment_hashAt {size lastHash hash} (found : (state.takenSegment size lastHash).hashAt number = some hash) :
    state.hashAt number = some hash := by
  obtain ⟨inside, _, blockIs, rfl⟩ := CanonicalChainSegment.hashAt_inv found
  simp only [takenSegment] at inside blockIs
  rw [segmentBlocks_get, Option.map_eq_some_iff] at blockIs
  obtain ⟨_, hashIs, rfl⟩ := blockIs
  rw [List.getElem?_take, Option.ite_none_right_eq_some] at hashIs
  rw [hashAt, Numbered.get_of_le _ inside]
  exact hashIs.2

theorem snapshot_reconnect_canonical (wf : state.WellFormed) (canonical : state.hashAt cursor.number = some cursor.hash) :
    state.snapshot.reconnect cursor = .ok .continue := by
  obtain ⟨lower, upper⟩ := wf.hashAt_range canonical
  rw [CanonicalChainSegment.reconnect, snapshot_info, if_neg (not_lt.mpr lower),
    if_neg (not_lt.mpr upper), snapshot_blockAt lower canonical]
  simp [bind, Except.bind, pure, Except.pure]

theorem snapshot_reconnect_removed (wf : state.WellFormed) {target}
    (foreign : state.hashAt cursor.number ≠ some cursor.hash) (nonzero : cursor.hash.isZero = false)
    (recorded : state.targetOf cursor = some target) :
    state.snapshot.reconnect cursor = .ok (.offlineReorg target) := by
  obtain ⟨_, found, targetAt⟩ := Option.bind_eq_some_iff.mp recorded
  have lower := wf.keys _ _ found
  rw [CanonicalChainSegment.reconnect, snapshot_info, if_neg (not_lt.mpr lower)]
  by_cases upper : cursor.number ≤ state.info.lastBlock.number
  · obtain ⟨hash, canonical⟩ := wf.hashAt_some lower upper
    have different : hash ≠ cursor.hash := by
      rw [canonical] at foreign
      exact fun same => foreign (same ▸ rfl)
    rw [if_neg (not_lt.mpr upper), snapshot_blockAt lower canonical, ExtTreeMap.getD_eq_getD_getElem?, found]
    simp [bind, Except.bind, pure, Except.pure, different, nonzero, targetAt]
  · rw [if_pos (not_le.mp upper), snapshot_extra (not_le.mp upper), found]
    simp only [targetAt]

end Building

namespace CanonicalChainSegment

/-- Two segments hold the same data for one block number: the same block when
    it lies inside both, the same extra reorgs when it lies above both. -/
structure AgreesAt (left right : CanonicalChainSegment) (number : Nat) : Prop where
  leftFirst : left.info.firstBlock.number ≤ number
  rightFirst : right.info.firstBlock.number ≤ number
  data :
    (number ≤ left.info.lastBlock.number ∧ number ≤ right.info.lastBlock.number ∧
      left.canonical[number - left.info.firstBlock.number]? =
        right.canonical[number - right.info.firstBlock.number]?) ∨
    (left.info.lastBlock.number < number ∧ left.info.lastBlock = right.info.lastBlock ∧
      left.findExtra number = right.findExtra number)

namespace AgreesAt

variable {left right : CanonicalChainSegment}

theorem blockAt (same : left.canonical[number - left.info.firstBlock.number]? =
    right.canonical[number - right.info.firstBlock.number]?) : left.blockAt number = right.blockAt number := by
  simp only [CanonicalChainSegment.blockAt, same]

theorem canonicalAt (agree : AgreesAt left right number) : left.canonicalAt number = right.canonicalAt number := by
  simp only [CanonicalChainSegment.canonicalAt]
  rw [if_neg (not_lt.mpr agree.leftFirst), if_neg (not_lt.mpr agree.rightFirst)]
  rcases agree.data with ⟨leftLast, rightLast, same⟩ | ⟨above, lastSame, -⟩
  · rw [if_neg (not_lt.mpr leftLast), if_neg (not_lt.mpr rightLast), blockAt same]
  · rw [if_pos above, if_pos (lastSame ▸ above), lastSame]

theorem siblings (agree : AgreesAt left right cursor.number) : left.siblings cursor = right.siblings cursor := by
  simp only [CanonicalChainSegment.siblings]
  rw [if_neg (not_lt.mpr agree.leftFirst), if_neg (not_lt.mpr agree.rightFirst)]
  rcases agree.data with ⟨leftLast, rightLast, same⟩ | ⟨above, lastSame, extraSame⟩
  · rw [if_neg (not_lt.mpr leftLast), if_neg (not_lt.mpr rightLast), blockAt same]
  · rw [if_pos above, if_pos (lastSame ▸ above), extraSame]
    simp only [afterLast, lastSame]

theorem reconnect (agree : AgreesAt left right cursor.number) : left.reconnect cursor = right.reconnect cursor := by
  simp only [CanonicalChainSegment.reconnect]
  rw [if_neg (not_lt.mpr agree.leftFirst), if_neg (not_lt.mpr agree.rightFirst)]
  rcases agree.data with ⟨leftLast, rightLast, same⟩ | ⟨above, lastSame, extraSame⟩
  · rw [if_neg (not_lt.mpr leftLast), if_neg (not_lt.mpr rightLast), blockAt same]
  · rw [if_pos above, if_pos (lastSame ▸ above), extraSame]
    simp only [afterLast, lastSame]

end AgreesAt

/-- The block number lies between the first and the last block. -/
def covers (segment : CanonicalChainSegment) (number : Nat) : Bool :=
  segment.info.firstBlock.number ≤ number && number ≤ segment.info.lastBlock.number

theorem covers_iff (segment : CanonicalChainSegment) (number : Nat) :
    segment.covers number = true ↔
      segment.info.firstBlock.number ≤ number ∧ number ≤ segment.info.lastBlock.number := by
  simp only [covers, Bool.and_eq_true, decide_eq_true_eq]

end CanonicalChainSegment

/-- One call on the builder. -/
inductive BuilderOp where
  | grow (block : BlockInfo)
  | shrink (newHead : Cursor)
  | takeSegment (size : Nat)
  deriving DecidableEq

structure ChainRun where
  builder : CanonicalChainBuilder
  /-- The segments taken so far, oldest first. -/
  taken : List CanonicalChainSegment
  /-- History: the blocks accepted by `grow`, oldest first. -/
  grown : List BlockInfo
  /-- History: the builder from which no segment was taken. -/
  unsplit : CanonicalChainBuilder

namespace ChainRun

def start : ChainRun := ⟨.empty, [], [], .empty⟩

/-- Apply one operation.  A call that returns an error leaves the builder it
    left behind; after a panic there is no next state. -/
def step (run : ChainRun) : BuilderOp → Option ChainRun
  | .grow block =>
    match run.builder.grow block with
    | (.ok (), builder) => some
        { run with
          builder := builder
          grown := run.grown ++ [block]
          unsplit := (run.unsplit.grow block).2 }
    | (.error (.error _), builder) => some { run with builder := builder }
    | (.error .panic, _) => none
  | .shrink newHead =>
    match run.builder.shrink newHead with
    | (.ok _, builder) => some
        { run with builder := builder, unsplit := (run.unsplit.shrink newHead).2 }
    | (.error (.error _), builder) => some { run with builder := builder }
    | (.error .panic, _) => none
  | .takeSegment size =>
    match run.builder.takeSegment size with
    | (.ok segment, builder) => some
        { run with builder := builder, taken := run.taken ++ [segment] }
    | (.error (.error _), builder) => some { run with builder := builder }
    | (.error .panic, _) => none

/-- The segment responsible for a block number: the current one from its first
    block on, and below that the taken segment that covers the number. -/
def segmentFor (run : ChainRun) (number : Nat) : Option CanonicalChainSegment :=
  match run.builder.currentSegment with
  | .ok current =>
    if current.info.firstBlock.number ≤ number then some current
    else run.taken.find? (·.covers number)
  | .error _ => run.taken.find? (·.covers number)

end ChainRun

/-- `taken` and `state` together are the unsplit chain `whole`, cut at the
    first block of `state`. -/
structure Splits (taken : List CanonicalChainSegment) (state whole : Building) : Prop where
  stateWf : state.WellFormed
  wholeWf : whole.WellFormed
  cut : whole.info.firstBlock.number ≤ state.info.firstBlock.number
  last : state.info.lastBlock = whole.info.lastBlock
  hashes : ∀ number, state.info.firstBlock.number ≤ number → state.hashAt number = whole.hashAt number
  reorgs : ∀ number, state.info.firstBlock.number ≤ number → state.reorgs[number]? = whole.reorgs[number]?
  covered : ∀ number, whole.info.firstBlock.number ≤ number →
    number < state.info.firstBlock.number → ∃ segment ∈ taken, segment.covers number
  faithful : ∀ segment ∈ taken, ∀ number, segment.covers number →
    whole.info.firstBlock.number ≤ number ∧ number < state.info.firstBlock.number ∧
    segment.canonical[number - segment.info.firstBlock.number]? = whole.blockAt number

variable {whole : Building}

namespace Splits

variable {taken : List CanonicalChainSegment}

theorem start (block : BlockInfo) : Splits [] (.single block) (.single block) where
  stateWf := Building.single_wellFormed block
  wholeWf := Building.single_wellFormed block
  cut := le_rfl
  last := rfl
  hashes _ _ := rfl
  reorgs _ _ := rfl
  covered number lower upper := absurd upper (by omega)
  faithful _ member := absurd member List.not_mem_nil

/-- Taken segments stay faithful when the whole chain changes above the cut
    only. -/
theorem faithful_of_same_below {other : Building} {base cut}
    (faithful : ∀ segment ∈ taken, ∀ number, segment.covers number →
      base ≤ number ∧ number < cut ∧
      segment.canonical[number - segment.info.firstBlock.number]? = whole.blockAt number)
    (same : ∀ number, number < cut → other.blockAt number = whole.blockAt number) :
    ∀ segment ∈ taken, ∀ number, segment.covers number →
      base ≤ number ∧ number < cut ∧
      segment.canonical[number - segment.info.firstBlock.number]? = other.blockAt number := by
  intro segment member number covers
  obtain ⟨lower, below, block⟩ := faithful segment member number covers
  exact ⟨lower, below, block.trans (same number below).symm⟩

variable (split : Splits taken state whole)
include split

theorem grown {block : BlockInfo} (next : block.number = state.info.lastBlock.number + 1) :
    Splits taken (state.grown block) (whole.grown block) := by
  have nextWhole : block.number = whole.info.lastBlock.number + 1 := by rw [← split.last]; exact next
  have ordered := split.stateWf.first_le_last
  refine ⟨split.stateWf.grown next, split.wholeWf.grown nextWhole, split.cut, rfl, ?_, split.reorgs,
    split.covered, faithful_of_same_below split.faithful ?_⟩
  · intro number above
    rw [Building.grown_hashAt split.stateWf next, Building.grown_hashAt split.wholeWf nextWhole,
      split.hashes number above]
  · intro number below
    rw [Building.grown_first] at below
    simp only [Building.blockAt, Building.grown_hashAt split.wholeWf nextWhole, Building.grown_reorgs]
    rw [if_neg (by omega)]

theorem shrunk {newHead : Cursor} (canonical : state.hashAt newHead.number = some newHead.hash) :
    Splits taken (state.shrunk newHead) (whole.shrunk newHead) := by
  obtain ⟨lower, -⟩ := split.stateWf.hashAt_range canonical
  have cut := split.cut
  have canonicalWhole : whole.hashAt newHead.number = some newHead.hash :=
    (split.hashes _ lower).symm.trans canonical
  refine ⟨split.stateWf.shrunk canonical, split.wholeWf.shrunk canonicalWhole, split.cut, rfl, ?_, ?_,
    split.covered, faithful_of_same_below split.faithful ?_⟩
  · intro number above
    rw [Building.shrunk_hashAt newHead number lower, Building.shrunk_hashAt newHead number (by omega),
      split.hashes number above]
  · intro number above
    rw [Building.shrunk_reorgs newHead number lower, Building.shrunk_reorgs newHead number (by omega),
      split.hashes number above, split.reorgs number above, ExtTreeMap.getD_eq_getD_getElem?,
      ExtTreeMap.getD_eq_getD_getElem?, split.reorgs number above]
  · intro number below
    rw [Building.shrunk_first] at below
    have kept : number ≤ newHead.number := by omega
    simp only [Building.blockAt, ExtTreeMap.getD_eq_getD_getElem?,
      Building.shrunk_hashAt newHead number (split.cut.trans lower),
      Building.shrunk_reorgs newHead number (split.cut.trans lower), if_pos kept,
      if_neg (not_lt.mpr kept)]

theorem shrinkTo {newHead : Cursor} (canonical : state.hashAt newHead.number = some newHead.hash) :
    Splits taken (state.shrinkTo newHead) (whole.shrinkTo newHead) := by
  unfold Building.shrinkTo
  rw [← split.last]
  by_cases top : newHead = state.info.lastBlock
  · rw [if_pos top, if_pos top]
    exact split
  · rw [if_neg top, if_neg top]
    exact split.shrunk canonical

theorem takenSegment {size lastHash nextHash} (positive : 0 < size) (inside : size < state.canonical.length)
    (nextAt : state.canonical[size]? = some nextHash) :
    Splits (taken ++ [state.takenSegment size lastHash]) (state.remaining size lastHash nextHash) whole := by
  have cut := split.cut
  refine ⟨split.stateWf.remaining inside nextAt, split.wholeWf, ?_, split.last, ?_, ?_, ?_, ?_⟩
  · rw [Building.remaining_first]
    simp only
    omega
  · intro number above
    rw [Building.remaining_first] at above
    rw [Building.remaining_hashAt, if_pos above, split.hashes number (by simp only at above; omega)]
  · intro number above
    rw [Building.remaining_first] at above
    rw [Building.remaining_reorgs split.stateWf.keys inside.le, if_pos above,
      split.reorgs number (by simp only at above; omega)]
  · intro number lower upper
    rw [Building.remaining_first] at upper
    by_cases old : number < state.info.firstBlock.number
    · obtain ⟨segment, member, covers⟩ := split.covered number lower old
      exact ⟨segment, List.mem_append_left _ member, covers⟩
    · refine ⟨state.takenSegment size lastHash, by simp, ?_⟩
      rw [CanonicalChainSegment.covers_iff]
      simp only [Building.takenSegment] at upper ⊢
      omega
  · intro segment member number covers
    rw [Building.remaining_first]
    rcases List.mem_append.mp member with old | new
    · obtain ⟨lower, _, block⟩ := split.faithful segment old number covers
      exact ⟨lower, by simp only; omega, block⟩
    · obtain rfl := List.mem_singleton.mp new
      rw [CanonicalChainSegment.covers_iff] at covers
      simp only [Building.takenSegment] at covers ⊢
      refine ⟨by omega, by omega, ?_⟩
      obtain ⟨i, rfl⟩ := Nat.exists_eq_add_of_le covers.1
      rw [Nat.add_sub_cancel_left, segmentBlocks_get, List.getElem?_take, if_pos (by omega),
        Building.blockAt, ← split.hashes _ covers.1, Building.hashAt, Numbered.get_base_add,
        ExtTreeMap.getD_eq_getD_getElem?, ExtTreeMap.getD_eq_getD_getElem?, split.reorgs _ covers.1]

/-- The current segment answers as the unsplit one from its first block on. -/
theorem agrees_current (above : state.info.firstBlock.number ≤ number) :
    CanonicalChainSegment.AgreesAt state.snapshot whole.snapshot number := by
  have cut := split.cut
  refine ⟨above, show whole.info.firstBlock.number ≤ number by omega, ?_⟩
  simp only [Building.snapshot_info]
  by_cases inside : number ≤ state.info.lastBlock.number
  · refine .inl ⟨inside, by rw [← split.last]; exact inside, ?_⟩
    rw [Building.snapshot_block above, Building.snapshot_block (by omega), Building.blockAt,
      Building.blockAt, split.hashes number above, ExtTreeMap.getD_eq_getD_getElem?,
      ExtTreeMap.getD_eq_getD_getElem?, split.reorgs number above]
  · refine .inr ⟨by omega, split.last, ?_⟩
    rw [Building.snapshot_extra (by omega), Building.snapshot_extra (by rw [← split.last]; omega),
      split.reorgs number above]

/-- A taken segment answers as the unsplit one at the numbers it covers. -/
theorem agrees_taken {segment} (member : segment ∈ taken) (covers : segment.covers number) :
    CanonicalChainSegment.AgreesAt segment whole.snapshot number := by
  obtain ⟨lower, _, block⟩ := split.faithful segment member number covers
  have ordered := split.stateWf.first_le_last
  obtain ⟨segmentFirst, segmentLast⟩ := (segment.covers_iff number).mp covers
  refine ⟨segmentFirst, lower, .inl ⟨segmentLast, ?_, ?_⟩⟩
  · rw [Building.snapshot_info, ← split.last]
    omega
  · rw [Building.snapshot_info, Building.snapshot_block lower]
    exact block

end Splits

namespace ChainRun

/-- `run` has at least one block, and its segments and its builder are a split
    of the unsplit chain. -/
structure Splitting (run : ChainRun) (state whole : Building) : Prop where
  builder : run.builder = .building state
  unsplit : run.unsplit = .building whole
  split : Splits run.taken state whole

theorem step_start {op next} (stepped : start.step op = some next) :
    next = start ∨ ∃ block, op = .grow block ∧
      next = ⟨.building (.single block), [], [block], .building (.single block)⟩ := by
  cases op with
  | grow block =>
    refine .inr ⟨block, rfl, ?_⟩
    simpa [step, start, grow, canGrow, Building.single, eq_comm] using stepped
  | shrink | takeSegment => exact .inl (Option.some.inj stepped).symm

/-- What one operation can do to a run whose last block has a non-zero hash. -/
theorem Splitting.step_cases {run next : ChainRun} {op} (splitting : run.Splitting state whole)
    (nonzero : state.info.lastBlock.hash.isZero = false) (stepped : run.step op = some next) :
    next = run ∨
    (∃ block, op = .grow block ∧ block.number = state.info.lastBlock.number + 1 ∧
      block.parent = state.info.lastBlock.hash ∧
      next = { run with
        builder := .building (state.grown block)
        grown := run.grown ++ [block]
        unsplit := .building (whole.grown block) }) ∨
    (∃ newHead, op = .shrink newHead ∧ newHead.number < state.info.lastBlock.number ∧
      state.hashAt newHead.number = some newHead.hash ∧
      next = { run with
        builder := .building (state.shrunk newHead)
        unsplit := .building (whole.shrunk newHead) }) ∨
    (∃ size lastHash nextHash, op = .takeSegment size ∧ 0 < size ∧ size < state.canonical.length ∧
      state.canonical[size]? = some nextHash ∧ state.canonical[size - 1]? = some lastHash ∧
      next = { run with
        builder := .building (state.remaining size lastHash nextHash)
        taken := run.taken ++ [state.takenSegment size lastHash] }) := by
  obtain ⟨builder, unsplit, split⟩ := splitting
  cases op with
  | grow block =>
    rcases grow_cases run.builder block with ⟨-, failed⟩ | ⟨empty, -⟩ | ⟨found, same, allowed, done⟩
    · simp only [step, failed, Outcome.fail] at stepped
      exact .inl (Option.some.inj stepped).symm
    · rw [builder] at empty
      exact absurd empty CanonicalChainBuilder.noConfusion
    · obtain rfl : state = found := CanonicalChainBuilder.building.inj (builder.symm.trans same)
      rw [builder] at allowed
      obtain ⟨next, parent⟩ := canGrow_next nonzero allowed
      have allowedWhole : canGrow (.building whole) block = true := by
        simpa only [canGrow, split.last] using allowed
      simp only [step, done, unsplit, grow_allowed allowedWhole] at stepped
      exact .inr (.inl ⟨block, rfl, next, parent, (Option.some.inj stepped).symm⟩)
  | shrink newHead =>
    rw [step, builder] at stepped
    rcases shrink_cases split.stateWf newHead with
      ⟨-, report, failed⟩ | ⟨top, done⟩ | ⟨below, canonical, _, done⟩
    · simp only [failed] at stepped
      rw [← builder] at stepped
      exact .inl (Option.some.inj stepped).symm
    · have topWhole : shrink (.building whole) newHead = (.ok [], .building whole) := by
        rcases shrink_cases split.wholeWf newHead with ⟨foreign, -⟩ | ⟨-, done⟩ | ⟨below, -⟩
        · rw [top, split.last] at foreign
          exact absurd split.wholeWf.lastHash foreign
        · exact done
        · rw [top, split.last] at below
          exact absurd below (lt_irrefl _)
      simp only [done, unsplit, topWhole] at stepped
      rw [← builder, ← unsplit] at stepped
      exact .inl (Option.some.inj stepped).symm
    · have canonicalWhole : whole.hashAt newHead.number = some newHead.hash :=
        (split.hashes _ (split.stateWf.hashAt_range canonical).1).symm.trans canonical
      obtain ⟨_, doneWhole⟩ :=
        shrink_canonical split.wholeWf canonicalWhole (split.last ▸ below)
      simp only [done, unsplit, doneWhole] at stepped
      exact .inr (.inr (.inl ⟨newHead, rfl, below, canonical, (Option.some.inj stepped).symm⟩))
  | takeSegment size =>
    rw [step, builder] at stepped
    rcases takeSegment_cases split.stateWf size with
      ⟨_, -, failed⟩ | ⟨-, panicked⟩ | ⟨positive, inside, lastHash, nextHash, nextAt, done⟩
    · simp only [failed] at stepped
      rw [← builder] at stepped
      exact .inl (Option.some.inj stepped).symm
    · simp only [panicked, reduceCtorEq] at stepped
    · simp only [done] at stepped
      exact .inr (.inr (.inr ⟨size, lastHash, nextHash, rfl, positive, inside, nextAt,
        takeSegment_lastHash done, (Option.some.inj stepped).symm⟩))

theorem Splitting.segmentFor_agrees {run : ChainRun} (splitting : run.Splitting state whole)
    (lower : whole.info.firstBlock.number ≤ number) :
    ∃ segment, run.segmentFor number = some segment ∧
      CanonicalChainSegment.AgreesAt segment whole.snapshot number := by
  obtain ⟨builder, -, split⟩ := splitting
  simp only [segmentFor, builder, Building.currentSegment_building]
  by_cases current : state.snapshot.info.firstBlock.number ≤ number
  · exact ⟨_, if_pos current, split.agrees_current current⟩
  · rw [if_neg current]
    obtain ⟨covering, member, covers⟩ := split.covered number lower (not_le.mp current)
    cases search : run.taken.find? (·.covers number) with
    | none => exact absurd covers (List.find?_eq_none.mp search covering member)
    | some segment =>
      have found : segment.covers number = true := by simpa using List.find?_some search
      exact ⟨segment, rfl, split.agrees_taken (List.mem_of_find?_eq_some search) found⟩

/-- `reconnect` on the segment responsible for the cursor. -/
def reconnect (run : ChainRun) (cursor : Cursor) : Option (ChainOutcome ReconnectAction) :=
  (run.segmentFor cursor.number).map (·.reconnect cursor)

/-- What the segment responsible for `number` has there. -/
def canonicalAt (run : ChainRun) (number : Nat) : Option (ChainOutcome Cursor) :=
  (run.segmentFor number).map (·.canonicalAt number)

/-- The chain has exactly this block at its number. -/
def Canonical (run : ChainRun) (cursor : Cursor) : Prop :=
  run.canonicalAt cursor.number = some (.ok cursor)

instance (run : ChainRun) (cursor : Cursor) : Decidable (run.Canonical cursor) :=
  inferInstanceAs (Decidable (_ = _))

namespace Splitting

variable {run : ChainRun} (splitting : run.Splitting state whole)
include splitting

theorem reconnect_eq (lower : whole.info.firstBlock.number ≤ cursor.number) :
    run.reconnect cursor = some (whole.snapshot.reconnect cursor) := by
  obtain ⟨_, responsible, agrees⟩ := splitting.segmentFor_agrees lower
  rw [reconnect, responsible, Option.map_some, agrees.reconnect]

theorem canonicalAt_eq (lower : whole.info.firstBlock.number ≤ number) :
    run.canonicalAt number = some (whole.snapshot.canonicalAt number) := by
  obtain ⟨_, responsible, agrees⟩ := splitting.segmentFor_agrees lower
  rw [canonicalAt, responsible, Option.map_some, agrees.canonicalAt]

theorem segmentFor_below (below : number < whole.info.firstBlock.number) : run.segmentFor number = none := by
  obtain ⟨builder, -, split⟩ := splitting
  simp only [segmentFor, builder, Building.currentSegment_building]
  have notCurrent : ¬ state.snapshot.info.firstBlock.number ≤ number :=
    not_le.mpr (below.trans_le split.cut)
  rw [if_neg notCurrent, List.find?_eq_none]
  intro segment member covers
  exact absurd (split.faithful segment member number covers).1 (not_le.mpr below)

theorem canonical_iff (cursor : Cursor) :
    run.Canonical cursor ↔ whole.hashAt cursor.number = some cursor.hash := by
  have split := splitting.split
  constructor
  · intro canonical
    by_cases lower : whole.info.firstBlock.number ≤ cursor.number
    · rw [Canonical, splitting.canonicalAt_eq lower] at canonical
      exact Building.snapshot_canonicalAt_inv split.wholeWf (Option.some.inj canonical)
    · exact absurd canonical (by simp [Canonical, canonicalAt, splitting.segmentFor_below (not_le.mp lower)])
  · intro canonical
    rw [Canonical, splitting.canonicalAt_eq (split.wholeWf.hashAt_range canonical).1,
      Building.snapshot_canonicalAt split.wholeWf canonical]

end Splitting

end ChainRun

end Starkstream
