import Starkstream.Chain.Split
import Mathlib.Logic.Relation

/-! # Following reorgs back to the canonical chain

A client that holds a block calls `reconnect` and moves to the target of every
`OfflineReorg` until it is told to continue.  The invariant behind this is
`Recorded`: every block ever accepted is either canonical or has a recorded
target, which is an older block of the same branch and was itself accepted.
-/

namespace Starkstream

open CanonicalChainBuilder

/-- `parent` is the block that one of `blocks`, at `child`, was built on. -/
def ParentOf (blocks : List BlockInfo) (parent child : Cursor) : Prop :=
  ∃ block ∈ blocks, block.cursor = child ∧ block.parentCursor = some parent

/-- Zero or more parent links lead from `child` back to `ancestor`. -/
def Ancestor (blocks : List BlockInfo) : Cursor → Cursor → Prop :=
  Relation.ReflTransGen (ParentOf blocks)

theorem ParentOf.number {blocks parent child} (link : ParentOf blocks parent child) :
    child.number = parent.number + 1 := by
  obtain ⟨_, -, rfl, parentIs⟩ := link
  simp only [BlockInfo.parentCursor, Option.ite_none_left_eq_some, Option.some.injEq] at parentIs
  obtain ⟨_, rfl⟩ := parentIs
  simp only [BlockInfo.cursor]
  omega

theorem ParentOf.mono {less more} (included : less ⊆ more) {parent child} (link : ParentOf less parent child) :
    ParentOf more parent child := by
  obtain ⟨block, member, rest⟩ := link
  exact ⟨block, included member, rest⟩

theorem Ancestor.mono {less more} (included : less ⊆ more) {ancestor child} (path : Ancestor less ancestor child) :
    Ancestor more ancestor child :=
  Relation.ReflTransGen.mono (fun _ _ link => ParentOf.mono included link) _ _ path

/-- What the record of reorgs says about the blocks accepted so far. -/
structure Recorded (grown : List BlockInfo) (whole : Building) : Prop where
  accepted : ∀ number hash, whole.hashAt number = some hash → ∃ block ∈ grown, block.cursor = ⟨number, hash⟩
  linked : ∀ number hash next, whole.hashAt number = some hash → whole.hashAt (number + 1) = some next →
    ParentOf grown ⟨number, hash⟩ ⟨number + 1, next⟩
  target : ∀ block ∈ grown, whole.hashAt block.number = some block.hash ∨
    ∃ target, whole.targetOf block.cursor = some target ∧ target.number < block.number ∧
      (∃ earlier ∈ grown, earlier.cursor = target) ∧ Ancestor grown target block.cursor

variable {whole : Building}

namespace Recorded

variable {blocks : List BlockInfo}

/-- Within the canonical chain a lower block is an ancestor of a higher one. -/
theorem ancestor_canonical (recorded : Recorded blocks whole) (wf : whole.WellFormed)
    {low high : Cursor} (ordered : low.number ≤ high.number)
    (lowAt : whole.hashAt low.number = some low.hash)
    (highAt : whole.hashAt high.number = some high.hash) : Ancestor blocks low high := by
  obtain ⟨distance, far⟩ := Nat.exists_eq_add_of_le ordered
  -- walk up from `low`; every step stays inside the range because `high` is inside
  induction distance generalizing high with
  | zero =>
    have same : high = low := by
      rw [Nat.add_zero] at far
      rw [far, lowAt] at highAt
      exact Cursor.ext far (Option.some.inj highAt).symm
    rw [same]
    exact .refl
  | succ distance ih =>
    obtain ⟨_, -⟩ := wf.hashAt_range lowAt
    obtain ⟨-, _⟩ := wf.hashAt_range highAt
    obtain ⟨below, belowAt⟩ := wf.hashAt_some (show _ ≤ low.number + distance by omega)
      (show low.number + distance ≤ _ by omega)
    have path : Ancestor blocks low ⟨low.number + distance, below⟩ :=
      ih (Nat.le_add_right _ _) belowAt rfl
    have link := recorded.linked (low.number + distance) below high.hash belowAt
      (by rw [← highAt, far]; rfl)
    rw [show high = ⟨low.number + distance + 1, high.hash⟩ by rw [Nat.add_assoc, ← far]]
    exact path.tail link

theorem start (block : BlockInfo) : Recorded [block] (.single block) := by
  refine ⟨?_, ?_, ?_⟩
  · intro number hash canonical
    have bounds := (Building.single_wellFormed block).hashAt_range canonical
    simp only [Building.single, BlockInfo.cursor] at bounds
    have same : number = block.number := by omega
    subst same
    have here : (Building.single block).hashAt block.number = some block.hash :=
      (Building.single_wellFormed block).firstHash
    rw [here] at canonical
    exact ⟨block, List.mem_singleton_self _, by rw [← Option.some.inj canonical]; rfl⟩
  · intro number hash next canonical canonicalNext
    have bounds := (Building.single_wellFormed block).hashAt_range canonical
    have boundsNext := (Building.single_wellFormed block).hashAt_range canonicalNext
    simp only [Building.single, BlockInfo.cursor] at bounds boundsNext
    omega
  · intro other member
    obtain rfl := List.mem_singleton.mp member
    exact .inl (Building.single_wellFormed other).firstHash

variable (recorded : Recorded blocks whole)
include recorded

theorem grown (wf : whole.WellFormed) {block : BlockInfo} (next : block.number = whole.info.lastBlock.number + 1)
    (parent : block.parent = whole.info.lastBlock.hash) : Recorded (blocks ++ [block]) (whole.grown block) := by
  have included : blocks ⊆ blocks ++ [block] := List.subset_append_left _ _
  have hashAt := Building.grown_hashAt wf next
  refine ⟨?_, ?_, ?_⟩
  · intro number hash canonical
    rw [hashAt] at canonical
    split_ifs at canonical with new
    · cases canonical
      exact ⟨block, by simp, by rw [new]; rfl⟩
    · obtain ⟨old, member, same⟩ := recorded.accepted number hash canonical
      exact ⟨old, included member, same⟩
  · intro number hash nextHash canonical canonicalNext
    rw [hashAt] at canonical canonicalNext
    split_ifs at canonicalNext with new
    · -- the new link: the parent of the block is the old last block
      rw [if_neg (by omega), show number = whole.info.lastBlock.number by omega, wf.lastHash] at canonical
      cases canonical
      cases canonicalNext
      refine ⟨block, by simp, by rw [new]; rfl, ?_⟩
      simp only [BlockInfo.parentCursor, parent]
      rw [if_neg (by omega), ← new, Nat.add_sub_cancel]
    · have inside := wf.hashAt_range canonicalNext
      rw [if_neg (by omega)] at canonical
      exact (recorded.linked number hash nextHash canonical canonicalNext).mono included
  · intro other member
    rw [hashAt]
    rcases List.mem_append.mp member with old | new
    · rcases recorded.target other old with canonical | ⟨target, recordedAt, lower, ⟨earlier, was⟩, path⟩
      · have inside := wf.hashAt_range canonical
        exact .inl (by rw [if_neg (by omega)]; exact canonical)
      · exact .inr ⟨target, recordedAt, lower, ⟨earlier, included was.1, was.2⟩, path.mono included⟩
    · obtain rfl := List.mem_singleton.mp new
      exact .inl (if_pos rfl)

theorem shrunk (wf : whole.WellFormed) {newHead : Cursor} (canonical : whole.hashAt newHead.number = some newHead.hash) :
    Recorded blocks (whole.shrunk newHead) := by
  obtain ⟨lower, -⟩ := wf.hashAt_range canonical
  have hashAt := fun number => Building.shrunk_hashAt newHead number lower
  refine ⟨?_, ?_, ?_⟩
  · intro number hash found
    rw [hashAt, Option.ite_none_right_eq_some] at found
    exact recorded.accepted number hash found.2
  · intro number hash next found foundNext
    rw [hashAt, Option.ite_none_right_eq_some] at found foundNext
    exact recorded.linked number hash next found.2 foundNext.2
  · intro block member
    rw [hashAt, Building.shrunk_targetOf newHead block.cursor lower]
    by_cases wasCanonical : whole.hashAt block.number = some block.hash
    · by_cases kept : block.number ≤ newHead.number
      · exact .inl (by rw [if_pos kept]; exact wasCanonical)
      · -- the block is removed by this shrink, and the new head is its target
        obtain ⟨accepted, was⟩ := recorded.accepted _ _ canonical
        refine .inr ⟨newHead, if_pos ⟨not_le.mp kept, wasCanonical⟩, not_le.mp kept, ⟨accepted, was⟩, ?_⟩
        exact recorded.ancestor_canonical wf (show newHead.number ≤ block.number by omega)
          canonical wasCanonical
    · rcases recorded.target block member with isCanonical | ⟨target, recordedAt, rest⟩
      · exact absurd isCanonical wasCanonical
      · exact .inr ⟨target, (if_neg (fun both => wasCanonical both.2)).trans recordedAt, rest⟩

/-- No accepted block lies below the first block. -/
theorem first_le (wf : whole.WellFormed) {block} (member : block ∈ blocks) :
    whole.info.firstBlock.number ≤ block.number := by
  rcases recorded.target block member with canonical | ⟨_, recordedAt, -⟩
  · exact (wf.hashAt_range canonical).1
  · obtain ⟨map, found, -⟩ := Option.bind_eq_some_iff.mp recordedAt
    exact wf.keys _ map found

theorem last_nonzero {taken state} (split : Splits taken state whole)
    (nonzero : ∀ block ∈ blocks, block.hash.isZero = false) : state.info.lastBlock.hash.isZero = false := by
  obtain ⟨block, member, same⟩ := recorded.accepted _ _ split.wholeWf.lastHash
  rw [split.last, ← congrArg Cursor.hash same]
  exact nonzero block member

end Recorded

namespace ChainRun

inductive WalkEnd where
  | stopped (cursor : Cursor)
  | unknown
  | failed
  | noSegment
  | outOfFuel
  deriving DecidableEq

/-- Reconnect and move to the reorg target until told to continue.  Returns the
    blocks moved to and how the walk ended. -/
def reorgWalk (run : ChainRun) : Nat → Cursor → List Cursor × WalkEnd
  | 0, _ => ([], .outOfFuel)
  | fuel + 1, cursor =>
    match run.reconnect cursor with
    | some (.ok .continue) => ([], .stopped cursor)
    | some (.ok (.offlineReorg target)) =>
      let (hops, ending) := reorgWalk run fuel target
      (target :: hops, ending)
    | some (.ok .unknown) => ([], .unknown)
    | some (.error _) => ([], .failed)
    | none => ([], .noSegment)

/-- The invariant of a run whose every offered block meets `offered`. -/
structure Sound (offered : BlockInfo → Prop) (run : ChainRun) : Prop where
  offered : ∀ block ∈ run.grown, offered block
  progress : run = start ∨ ∃ state whole, run.Splitting state whole ∧ Recorded run.grown whole

variable {offered : BlockInfo → Prop} {run next : ChainRun}

theorem Sound.step (sound : run.Sound offered) (nonzero : ∀ block, offered block → block.hash.isZero = false) {op}
    (isOffered : ∀ block, op = .grow block → offered block) (stepped : run.step op = some next) :
    next.Sound offered := by
  obtain ⟨offeredAll, rfl | ⟨state, whole, splitting, recorded⟩⟩ := sound
  · rcases step_start stepped with rfl | ⟨block, rfl, rfl⟩
    · exact ⟨offeredAll, .inl rfl⟩
    · refine ⟨?_, .inr ⟨_, _, ⟨rfl, rfl, .start block⟩, .start block⟩⟩
      intro other member
      obtain rfl := List.mem_singleton.mp member
      exact isOffered other rfl
  · have split := splitting.split
    have lastNonzero := recorded.last_nonzero split (fun block member => nonzero block (offeredAll block member))
    rcases splitting.step_cases lastNonzero stepped with
      rfl | ⟨_, rfl, number, parent, rfl⟩ | ⟨newHead, rfl, -, canonical, rfl⟩ |
      ⟨size, lastHash, nextHash, rfl, positive, inside, nextAt, -, rfl⟩
    · exact ⟨offeredAll, .inr ⟨state, whole, splitting, recorded⟩⟩
    · refine ⟨?_, .inr ⟨_, _, ⟨rfl, rfl, split.grown number⟩,
        recorded.grown split.wholeWf (split.last ▸ number) (split.last ▸ parent)⟩⟩
      intro other member
      rcases List.mem_append.mp member with old | new
      · exact offeredAll other old
      · obtain rfl := List.mem_singleton.mp new
        exact isOffered other rfl
    · have canonicalWhole : whole.hashAt newHead.number = some newHead.hash :=
        (split.hashes _ (split.stateWf.hashAt_range canonical).1).symm.trans canonical
      exact ⟨offeredAll, .inr ⟨_, _, ⟨rfl, rfl, split.shrunk canonical⟩,
        recorded.shrunk split.wholeWf canonicalWhole⟩⟩
    · exact ⟨offeredAll, .inr ⟨_, _,
        ⟨rfl, splitting.unsplit, split.takenSegment positive inside nextAt⟩, recorded⟩⟩

theorem start_sound : start.Sound offered := ⟨fun _ member => absurd member List.not_mem_nil, .inl rfl⟩

theorem Sound.reached {ops} (sound : run.Sound offered) (nonzero : ∀ block, offered block → block.hash.isZero = false)
    (isOffered : ∀ block, .grow block ∈ ops → offered block) (reached : Runs.run ChainRun.step run ops = some next) :
    next.Sound offered :=
  Runs.run_invariant
    (fun _ member _ _ before stepped =>
      before.step nonzero (fun block same => isOffered block (same ▸ member)) stepped)
    sound reached

/-- The blocks accepted in `run` are accepted in `next` too, and the unsplit
    chain still starts at the first block of `whole`. -/
structure Extends (run : ChainRun) (whole : Building) (next : ChainRun) : Prop where
  grown : run.grown ⊆ next.grown
  unsplit : ∃ later, next.unsplit = .building later ∧ later.info.firstBlock = whole.info.firstBlock

theorem step_extends {op} (stepped : run.step op = some next) (same : run.unsplit = .building whole) :
    run.Extends whole next := by
  have unchanged : run.grown ⊆ run.grown := List.Subset.refl _
  cases op with
  | grow block =>
    simp only [ChainRun.step] at stepped
    split at stepped
    · cases stepped
      exact ⟨List.subset_append_left _ _, same ▸ grow_first whole block⟩
    · cases stepped
      exact ⟨unchanged, ⟨whole, same, rfl⟩⟩
    · exact absurd stepped (by simp)
  | shrink newHead =>
    simp only [ChainRun.step] at stepped
    split at stepped
    · cases stepped
      exact ⟨unchanged, same ▸ shrink_first whole newHead⟩
    · cases stepped
      exact ⟨unchanged, ⟨whole, same, rfl⟩⟩
    · exact absurd stepped (by simp)
  | takeSegment =>
    simp only [ChainRun.step] at stepped
    split at stepped
    · cases stepped
      exact ⟨unchanged, ⟨whole, same, rfl⟩⟩
    · cases stepped
      exact ⟨unchanged, ⟨whole, same, rfl⟩⟩
    · exact absurd stepped (by simp)

theorem run_extends {ops} (reached : Runs.run ChainRun.step run ops = some next) (same : run.unsplit = .building whole) :
    run.Extends whole next := by
  refine Runs.run_invariant ?_ ⟨List.Subset.refl _, whole, same, rfl⟩ reached
  rintro op - before after ⟨included, _, sameMiddle, first⟩ stepped
  obtain ⟨more, last, sameLast, firstLast⟩ := step_extends stepped sameMiddle
  exact ⟨List.Subset.trans included more, last, sameLast, firstLast.trans first⟩

/-- From any accepted block the walk goes down, block number by block number,
    and stops on the canonical chain at an ancestor. -/
theorem walk_stops {state} (splitting : run.Splitting state whole) (recorded : Recorded run.grown whole)
    (nonzero : ∀ block ∈ run.grown, block.hash.isZero = false) (fuel : Nat) {block} (member : block ∈ run.grown)
    (enough : block.number < fuel) :
    ∃ hops final, run.reorgWalk fuel block.cursor = (hops, .stopped final) ∧
      (block.cursor :: hops).IsChain (fun upper lower => lower.number < upper.number) ∧
      (block.cursor :: hops).getLast? = some final ∧
      run.Canonical final ∧ Ancestor run.grown final block.cursor := by
  have wf := splitting.split.wholeWf
  -- the fuel bounds the block number, which drops at every hop
  induction fuel generalizing block with
  | zero => exact absurd enough (Nat.not_lt_zero _)
  | succ fuel ih =>
    have responsible := splitting.reconnect_eq
      (show whole.info.firstBlock.number ≤ block.cursor.number from recorded.first_le wf member)
    by_cases canonical : whole.hashAt block.number = some block.hash
    · refine ⟨[], block.cursor, ?_, .singleton _, rfl, (splitting.canonical_iff _).mpr canonical, .refl⟩
      rw [reorgWalk, responsible, Building.snapshot_reconnect_canonical wf canonical]
    · rcases recorded.target block member with isCanonical | ⟨-, known, lower, ⟨earlier, was, rfl⟩, path⟩
      · exact absurd isCanonical canonical
      · obtain ⟨hops, final, walked, decreasing, last, final_canonical, rest⟩ :=
          ih was (lower.trans_le (Nat.lt_succ_iff.mp enough))
        refine ⟨earlier.cursor :: hops, final, ?_, .cons_cons lower decreasing, ?_, final_canonical,
          rest.trans path⟩
        · rw [reorgWalk, responsible,
            Building.snapshot_reconnect_removed wf canonical (nonzero block member) known]
          simp only [walked]
        · rw [List.getLast?_cons_cons]
          exact last

/-- With hashes that determine their block, the ancestors of a block that was
    canonical were canonical with it. -/
theorem ancestor_was_canonical {blocks more} (included : blocks ⊆ more)
    (determined : ∀ left ∈ more, ∀ right ∈ more, left.hash = right.hash → left.parent = right.parent)
    (wf : whole.WellFormed) (recorded : Recorded blocks whole) {cursor ancestor : Cursor}
    (canonical : whole.hashAt cursor.number = some cursor.hash) (path : Ancestor more ancestor cursor)
    (lower : whole.info.firstBlock.number ≤ ancestor.number) : whole.hashAt ancestor.number = some ancestor.hash := by
  -- from `cursor` down the path, one parent link at a time
  induction path using Relation.ReflTransGen.head_induction_on with
  | refl => exact canonical
  | head link rest ih =>
    rename_i parent child
    have step := link.number
    have childAt := ih (by omega)
    obtain ⟨-, _⟩ := wf.hashAt_range childAt
    obtain ⟨hash, parentAt⟩ := wf.hashAt_some lower (by omega)
    rw [step] at childAt
    obtain ⟨block, member, isChild, isParent⟩ := recorded.linked _ _ _ parentAt childAt
    obtain ⟨other, otherMember, otherChild, otherParent⟩ := link
    have sameCursor : block.cursor = other.cursor := by
      rw [isChild, otherChild]
      exact Cursor.ext step.symm rfl
    have sameParent := determined block (included member) other otherMember
      (congrArg Cursor.hash sameCursor)
    have sameNumber : block.number = other.number := congrArg Cursor.number sameCursor
    rw [BlockInfo.parentCursor, sameNumber, sameParent, ← BlockInfo.parentCursor, otherParent] at isParent
    rw [parentAt, Option.some.inj isParent]

/-- A block that was canonical at some point of a run can be followed, at any
    later point, down to a block that is canonical now, is an ancestor of it and
    was canonical with it. -/
theorem reorgWalk_sound {earlier later : List BuilderOp} {before after : ChainRun} {cursor : Cursor}
    (nonzero : ∀ block, .grow block ∈ earlier ++ later → block.hash.isZero = false)
    (determined : ∀ left right, .grow left ∈ earlier ++ later → .grow right ∈ earlier ++ later →
      left.hash = right.hash → left.number = right.number ∧ left.parent = right.parent)
    (first : Runs.run step start earlier = some before)
    (second : Runs.run step before later = some after)
    (canonical : before.Canonical cursor) (fuel : Nat) (enough : cursor.number < fuel) :
    ∃ hops final, after.reorgWalk fuel cursor = (hops, .stopped final) ∧
      (cursor :: hops).IsChain (fun upper lower => lower.number < upper.number) ∧
      (cursor :: hops).getLast? = some final ∧ after.Canonical final ∧
      Ancestor after.grown final cursor ∧ before.Canonical final := by
  have soundBefore := start_sound.reached nonzero (fun _ member => List.mem_append_left _ member) first
  have soundAfter := soundBefore.reached nonzero (fun _ member => List.mem_append_right _ member) second
  obtain ⟨-, rfl | ⟨state, whole, splitting, recorded⟩⟩ := soundBefore
  · exact absurd canonical (by simp [Canonical, canonicalAt, segmentFor, start, currentSegment, Outcome.fail])
  obtain ⟨included, wholeAfter, sameUnsplit, sameFirst⟩ := run_extends second splitting.unsplit
  obtain ⟨offeredAfter, rfl | ⟨stateAfter, found, splittingAfter, recordedAfter⟩⟩ := soundAfter
  · exact absurd sameUnsplit CanonicalChainBuilder.noConfusion
  obtain rfl : wholeAfter = found :=
    CanonicalChainBuilder.building.inj (sameUnsplit.symm.trans splittingAfter.unsplit)
  have canonicalWhole := (splitting.canonical_iff cursor).mp canonical
  obtain ⟨block, member, same⟩ := recorded.accepted _ _ canonicalWhole
  obtain rfl : block.cursor = cursor := same
  obtain ⟨hops, final, walked, decreasing, last, finalCanonical, path⟩ :=
    walk_stops splittingAfter recordedAfter (fun block member => nonzero block (offeredAfter block member))
      fuel (included member) enough
  refine ⟨hops, final, walked, decreasing, last, finalCanonical, path, ?_⟩
  rw [splitting.canonical_iff]
  have lower := splittingAfter.split.wholeWf.hashAt_range ((splittingAfter.canonical_iff final).mp finalCanonical)
  refine ancestor_was_canonical included ?_ splitting.split.wholeWf recorded canonicalWhole path
    (sameFirst ▸ lower.1)
  intro left leftMember right rightMember same
  exact (determined left right (offeredAfter left leftMember) (offeredAfter right rightMember) same).2

/-- Three blocks, of which two are later replaced by one, and a segment taken. -/
def forkBefore : List BuilderOp :=
  [.grow ⟨7, ⟨[1]⟩, ⟨[9]⟩⟩, .grow ⟨8, ⟨[2]⟩, ⟨[1]⟩⟩, .grow ⟨9, ⟨[3]⟩, ⟨[2]⟩⟩]

def forkAfter : List BuilderOp :=
  [.shrink ⟨8, ⟨[2]⟩⟩, .shrink ⟨7, ⟨[1]⟩⟩, .grow ⟨8, ⟨[4]⟩, ⟨[1]⟩⟩, .takeSegment 1]

theorem reorgWalk_sound_fork :
    ∃ before after, Runs.run step start forkBefore = some before ∧
      Runs.run step before forkAfter = some after ∧ before.Canonical ⟨9, ⟨[3]⟩⟩ ∧
      ∃ hops final, after.reorgWalk 10 ⟨9, ⟨[3]⟩⟩ = (hops, .stopped final) ∧
        (⟨9, ⟨[3]⟩⟩ :: hops).IsChain (fun upper lower => lower.number < upper.number) ∧
        (⟨9, ⟨[3]⟩⟩ :: hops).getLast? = some final ∧ after.Canonical final ∧
        Ancestor after.grown final ⟨9, ⟨[3]⟩⟩ ∧ before.Canonical final := by
  have nonzero : ∀ block, .grow block ∈ forkBefore ++ forkAfter → block.hash.isZero = false := by
    intro block member
    simp [forkBefore, forkAfter] at member
    rcases member with rfl | rfl | rfl | rfl <;> rfl
  have determined : ∀ left right, .grow left ∈ forkBefore ++ forkAfter →
      .grow right ∈ forkBefore ++ forkAfter → left.hash = right.hash →
      left.number = right.number ∧ left.parent = right.parent := by
    intro left right leftMember rightMember
    simp [forkBefore, forkAfter] at leftMember rightMember
    rcases leftMember with rfl | rfl | rfl | rfl <;> rcases rightMember with rfl | rfl | rfl | rfl <;>
      decide
  have possible : (Runs.run step start forkBefore).any (fun before =>
      decide (before.Canonical ⟨9, ⟨[3]⟩⟩) && (Runs.run step before forkAfter).isSome) = true := by
    decide
  obtain ⟨before, first, checked⟩ := Option.any_eq_true _ _ |>.mp possible
  simp only [Bool.and_eq_true, decide_eq_true_eq] at checked
  obtain ⟨canonical, hasAfter⟩ := checked
  obtain ⟨after, second⟩ := Option.isSome_iff_exists.mp hasAfter
  exact ⟨before, after, first, second, canonical,
    reorgWalk_sound nonzero determined first second canonical 10 (by decide)⟩

end ChainRun

end Starkstream
