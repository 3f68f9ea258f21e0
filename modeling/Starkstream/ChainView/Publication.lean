import Starkstream.Chain.ReorgWalk
import Starkstream.ChainView.Segmentation

/-! # Chains published one after the other

Ingestion publishes its chain again and again; in between it calls the builder.
This module says what a reader of the newest publication is answered, in terms of
the unsplit chain, and what a publication has in common with the earlier ones.
-/

namespace Starkstream

open CanonicalChainBuilder
open IngestionService

variable {cursor : Cursor}

namespace Building

/-- What `reconnect` on a snapshot says about the cursor. -/
theorem snapshot_reconnect_inv {state : Building} (wf : state.WellFormed) {action}
    (answered : state.snapshot.reconnect cursor = .ok action) :
    match action with
    | .continue => cursor.number ≤ state.info.lastBlock.number ∧
        (cursor.hash.isZero = true ∨ state.hashAt cursor.number = some cursor.hash)
    | .offlineReorg target => state.targetOf cursor = some target ∧
        state.hashAt cursor.number ≠ some cursor.hash ∧
        (cursor.hash.isZero = true → state.info.lastBlock.number < cursor.number)
    | .unknown => True := by
  rw [CanonicalChainSegment.reconnect, snapshot_info] at answered
  by_cases lower : state.info.firstBlock.number ≤ cursor.number
  · rw [if_neg (not_lt.mpr lower)] at answered
    by_cases upper : cursor.number ≤ state.info.lastBlock.number
    · obtain ⟨hash, canonical⟩ := wf.hashAt_some lower upper
      rw [if_neg (not_lt.mpr upper), snapshot_blockAt lower canonical] at answered
      simp only [bind, Except.bind, pure, Except.pure, Bool.or_eq_true, beq_iff_eq] at answered
      split_ifs at answered with same
      · cases answered
        refine ⟨upper, same.symm.imp id fun here => ?_⟩
        rw [canonical, here]
      · have foreign : state.hashAt cursor.number ≠ some cursor.hash := by
          rw [canonical]
          exact fun here => same (.inl (Option.some.inj here))
        split at answered
        · cases answered
          trivial
        · rename_i target found
          cases answered
          refine ⟨?_, foreign, fun zero => absurd (.inr zero) same⟩
          cases known : state.reorgs[cursor.number]? with
          | none => simp [Std.ExtTreeMap.getD_eq_getD_getElem?, known] at found
          | some =>
            simp only [Std.ExtTreeMap.getD_eq_getD_getElem?, known, Option.getD_some] at found
            rw [targetOf, known, Option.bind_some, found]
    · have above := not_le.mp upper
      rw [if_pos above, snapshot_extra above] at answered
      have foreign : state.hashAt cursor.number ≠ some cursor.hash :=
        fun canonical => upper (wf.hashAt_range canonical).2
      cases known : state.reorgs[cursor.number]? with
      | none => simp [known, CanonicalChainSegment.afterLast, Outcome.fail] at answered
      | some map =>
        simp only [known] at answered
        cases found : map[cursor.hash]? with
        | none =>
          simp only [found, Except.ok.injEq] at answered
          subst answered
          trivial
        | some =>
          simp only [found, Except.ok.injEq] at answered
          subst answered
          exact ⟨by rw [targetOf, known, Option.bind_some, found], foreign, fun _ => above⟩
  · rw [if_pos (not_le.mp lower)] at answered
    simp [CanonicalChainSegment.beforeFirst, Outcome.fail] at answered

end Building

/-- A chain that some of the accepted blocks made up at one time. -/
structure Was (options : IngestionServiceOptions) (grown : List BlockInfo) (whole : Building) : Prop where
  wf : whole.WellFormed
  starts : whole.info.firstBlock.number = startingBlock options
  recorded : ∃ blocks, blocks ⊆ grown ∧ Recorded blocks whole

def Determined (blocks : List BlockInfo) : Prop :=
  ∀ left ∈ blocks, ∀ right ∈ blocks, left.hash = right.hash → left.parent = right.parent

variable {options : IngestionServiceOptions} {whole : Building}

namespace Was

variable {grown : List BlockInfo} {other : Building}

variable (was : Was options grown whole)
include was

theorem mono {more} (included : grown ⊆ more) : Was options more whole := by
  obtain ⟨blocks, sub, recorded⟩ := was.recorded
  exact ⟨was.wf, was.starts, blocks, List.Subset.trans sub included, recorded⟩

/-- The ancestors of a block of the chain are on the chain. -/
theorem ancestor (determined : Determined grown) {ancestor} (canonical : whole.hashAt cursor.number = some cursor.hash)
    (path : Ancestor grown ancestor cursor) (lower : startingBlock options ≤ ancestor.number) :
    whole.hashAt ancestor.number = some ancestor.hash := by
  obtain ⟨_, included, recorded⟩ := was.recorded
  exact ChainRun.ancestor_was_canonical included determined was.wf recorded canonical path
    (was.starts.trans_le lower)

/-- Two chains that share a block share everything below it. -/
theorem agree (is : Was options grown other) (determined : Determined grown)
    (here : whole.hashAt cursor.number = some cursor.hash) (there : other.hashAt cursor.number = some cursor.hash)
    {number} (below : number ≤ cursor.number) {hash} (found : whole.hashAt number = some hash) :
    other.hashAt number = some hash := by
  obtain ⟨blocks, included, recorded⟩ := was.recorded
  have path : Ancestor blocks ⟨number, hash⟩ cursor := recorded.ancestor_canonical was.wf below found here
  have lower := (was.wf.hashAt_range found).1
  exact is.ancestor determined there (path.mono included) (was.starts.symm.trans_le lower)

theorem accepted {number hash} (found : whole.hashAt number = some hash) :
    ∃ block ∈ grown, block.cursor = ⟨number, hash⟩ := by
  obtain ⟨_, included, recorded⟩ := was.recorded
  obtain ⟨block, member, same⟩ := recorded.accepted number hash found
  exact ⟨block, included member, same⟩

end Was

/-- The chain of the builder at a moment when it can be published. -/
structure Publishing (options : IngestionServiceOptions) (offered : List BlockInfo) (chain : ChainRun)
    (state whole : Building) : Prop where
  splitting : chain.Splitting state whole
  divided : Divided options chain.taken state whole
  recorded : Recorded chain.grown whole
  lower : ∀ cursor target, whole.targetOf cursor = some target → target.number < cursor.number
  offered : ∀ block ∈ chain.grown, block ∈ offered

/-- The calls of the builder between two publications: segments have one size,
    and nothing up to the segmented block is removed. -/
def BuilderOp.allowed (options : IngestionServiceOptions) (segmented : Option Nat) : BuilderOp → Bool
  | .grow _ => true
  | .shrink newHead => segmented.all (· ≤ newHead.number)
  | .takeSegment size => size = options.chainSegmentSize

/-- The later chain has the same blocks up to `floor`. -/
structure KeepsTo (floor : Nat) (whole later : Building) : Prop where
  head : floor ≤ later.info.lastBlock.number
  hashes : ∀ number ≤ floor, later.hashAt number = whole.hashAt number

def Keeps (segmented : Option Nat) (whole later : Building) : Prop :=
  ∀ floor, segmented = some floor → floor ≤ whole.info.lastBlock.number → KeepsTo floor whole later

theorem Keeps.refl (segmented : Option Nat) (whole : Building) : Keeps segmented whole whole :=
  fun _ _ below => ⟨below, fun _ _ => rfl⟩

theorem Keeps.trans {segmented middle later} (first : Keeps segmented whole middle)
    (second : Keeps segmented middle later) : Keeps segmented whole later := by
  intro floor isFloor below
  obtain ⟨head, hashes⟩ := first floor isFloor below
  obtain ⟨laterHead, laterHashes⟩ := second floor isFloor head
  exact ⟨laterHead, fun number lower => (laterHashes number lower).trans (hashes number lower)⟩

namespace Publishing

variable {offered : List BlockInfo} {chain next : ChainRun} {state : Building}

theorem was (publishing : Publishing options offered chain state whole) : Was options chain.grown whole :=
  ⟨publishing.divided.wholeWf, publishing.divided.starts, chain.grown, List.Subset.refl _, publishing.recorded⟩

theorem start {block : BlockInfo} (first : block.number = startingBlock options) (isOffered : block ∈ offered) :
    Publishing options offered ⟨.building (.single block), [], [block], .building (.single block)⟩
      (.single block) (.single block) := by
  refine ⟨⟨rfl, rfl, .start block⟩, .single first, .start block, ?_, ?_⟩
  · intro cursor target known
    simp [Building.targetOf, Building.single] at known
  · intro other member
    obtain rfl := List.mem_singleton.mp member
    exact isOffered

variable (publishing : Publishing options offered chain state whole)
  (nonzero : ∀ block ∈ offered, block.hash.isZero = false)
include publishing nonzero

theorem step {segmented} {op : BuilderOp} (allowed : op.allowed options segmented = true)
    (isOffered : ∀ block, op = .grow block → block ∈ offered) (stepped : chain.step op = some next) :
    ∃ stateAfter wholeAfter, Publishing options offered next stateAfter wholeAfter ∧
      chain.grown ⊆ next.grown ∧ Keeps segmented whole wholeAfter := by
  obtain ⟨splitting, divided, recorded, lower, offeredAll⟩ := publishing
  have split := splitting.split
  have lastNonzero := recorded.last_nonzero split (fun block member => nonzero block (offeredAll block member))
  rcases splitting.step_cases lastNonzero stepped with
    rfl | ⟨block, rfl, number, parent, rfl⟩ | ⟨newHead, rfl, below, canonical, rfl⟩ |
    ⟨size, lastHash, nextHash, rfl, positive, inside, nextAt, -, rfl⟩
  · exact ⟨state, whole, ⟨splitting, divided, recorded, lower, offeredAll⟩, List.Subset.refl _, .refl _ _⟩
  · have wholeNumber : block.number = whole.info.lastBlock.number + 1 := split.last ▸ number
    refine ⟨_, _, ⟨⟨rfl, rfl, split.grown number⟩, divided.grown number,
      recorded.grown split.wholeWf wholeNumber (split.last ▸ parent), lower, ?_⟩,
      List.subset_append_left _ _, ?_⟩
    · intro other member
      rcases List.mem_append.mp member with old | new
      · exact offeredAll other old
      · obtain rfl := List.mem_singleton.mp new
        exact isOffered other rfl
    · intro floor _ under
      refine ⟨?_, fun number lower => ?_⟩
      · simp only [Building.grown_last, BlockInfo.cursor]
        omega
      · rw [Building.grown_hashAt split.wholeWf wholeNumber, if_neg (by omega)]
  · have stateInside := split.stateWf.hashAt_range canonical
    have canonicalWhole : whole.hashAt newHead.number = some newHead.hash :=
      (split.hashes _ stateInside.1).symm.trans canonical
    have inside := split.wholeWf.hashAt_range canonicalWhole
    have notTop : newHead ≠ state.info.lastBlock := by
      rintro rfl
      exact absurd below (lt_irrefl _)
    have shrunkDivided := divided.shrinkTo canonical
    rw [Building.shrinkTo, if_neg notTop, Building.shrinkTo, if_neg (split.last ▸ notTop)] at shrunkDivided
    refine ⟨_, _, ⟨⟨rfl, rfl, split.shrunk canonical⟩, shrunkDivided,
      recorded.shrunk split.wholeWf canonicalWhole, ?_, offeredAll⟩, List.Subset.refl _, ?_⟩
    · intro cursor target known
      rw [Building.shrunk_targetOf newHead cursor inside.1] at known
      split_ifs at known with removed
      · cases known
        exact removed.1
      · exact lower cursor target known
    · intro floor isFloor _
      have kept : floor ≤ newHead.number := by simpa [BuilderOp.allowed, isFloor] using allowed
      refine ⟨kept, fun number lower => ?_⟩
      rw [Building.shrunk_hashAt newHead number inside.1, if_pos (by omega)]
  · obtain rfl : size = options.chainSegmentSize := by simpa [BuilderOp.allowed] using allowed
    exact ⟨_, whole, ⟨⟨rfl, splitting.unsplit, split.takenSegment positive inside nextAt⟩,
      divided.taken _ positive inside nextAt, recorded, lower, offeredAll⟩, List.Subset.refl _, .refl _ _⟩

theorem run {segmented ops} (allowed : ∀ op ∈ ops, op.allowed options segmented = true)
    (isOffered : ∀ block, .grow block ∈ ops → block ∈ offered) (reached : Runs.run ChainRun.step chain ops = some next) :
    ∃ stateAfter wholeAfter, Publishing options offered next stateAfter wholeAfter ∧
      chain.grown ⊆ next.grown ∧ Keeps segmented whole wholeAfter := by
  induction ops generalizing chain state whole with
  | nil =>
    cases reached
    exact ⟨state, whole, publishing, List.Subset.refl _, .refl _ _⟩
  | cons op rest ih =>
    obtain ⟨_, stepped, later⟩ := Option.bind_eq_some_iff.mp reached
    obtain ⟨_, _, publishingMiddle, more, kept⟩ := publishing.step nonzero
      (allowed op List.mem_cons_self) (fun block same => isOffered block (same ▸ List.mem_cons_self)) stepped
    obtain ⟨stateAfter, wholeAfter, publishingAfter, evenMore, keptAfter⟩ := ih publishingMiddle
      (fun other member => allowed other (List.mem_cons_of_mem _ member))
      (fun block member => isOffered block (List.mem_cons_of_mem _ member)) later
    exact ⟨stateAfter, wholeAfter, publishingAfter, List.Subset.trans more evenMore, kept.trans keptAfter⟩

end Publishing

/-! ## What a reader of the newest publication is answered -/

/-- The chain store after the given segments were put. -/
def chainStore (taken : List CanonicalChainSegment) : ChainStoreGet :=
  fun start => .ok (taken.find? (·.info.firstBlock.number = start))

theorem Aligned.chainStore_finds {taken} (aligned : Aligned options taken) {segment} (member : segment ∈ taken) :
    chainStore taken segment.info.firstBlock.number = .ok (some segment) := by
  cases search : taken.find? (·.info.firstBlock.number = segment.info.firstBlock.number) with
  | none => simpa using List.find?_eq_none.mp search segment member
  | some found =>
    have same : found.info.firstBlock.number = segment.info.firstBlock.number := by
      simpa using List.find?_some search
    obtain ⟨i, foundAt⟩ := List.getElem?_of_mem (List.mem_of_find?_eq_some search)
    obtain ⟨j, segmentAt⟩ := List.getElem?_of_mem member
    obtain ⟨-, rfl⟩ := aligned.unique foundAt segmentAt same
    exact congrArg Except.ok search

/-- The chain has this block, or the cursor names a block by its number only. -/
def Building.Has (whole : Building) (cursor : Cursor) : Prop :=
  cursor.hash.isZero = true ∨ whole.hashAt cursor.number = some cursor.hash

/-- The chain view of a reader right after a publication. -/
def readerOf (options : IngestionServiceOptions) (chain : ChainRun) (recent : CanonicalChainSegment) :
    FullCanonicalChain :=
  viewOf options (chainStore chain.taken) recent

namespace Publishing

variable {offered : List BlockInfo} {chain : ChainRun} {state : Building} {number : Nat}

variable (publishing : Publishing options offered chain state whole)
include publishing

theorem sameAt (lower : startingBlock options ≤ number) :
    (readerOf options chain state.snapshot).SameAt (readerOf options chain whole.snapshot) number :=
  publishing.divided.sameAt (fun _ member => publishing.divided.aligned.chainStore_finds member) lower

theorem whole_getChainSegment (lower : startingBlock options ≤ number) :
    (readerOf options chain whole.snapshot).getChainSegment number = .ok whole.snapshot :=
  if_pos (publishing.divided.starts.trans_le lower)

/-- Below the starting block the name of a segment cannot be computed. -/
theorem getChainSegment_below (below : number < startingBlock options) :
    (readerOf options chain state.snapshot).getChainSegment number = .error .panic := by
  have older : ¬ (readerOf options chain state.snapshot).recent.info.firstBlock.number ≤ number := by
    have cut := publishing.divided.cut
    rw [publishing.divided.starts] at cut
    exact fun inside => absurd (cut.trans inside) (not_le.mpr below)
  have unnamed : chainSegmentStart number (startingBlock options) options.chainSegmentSize = .error .panic :=
    if_pos (.inl below)
  rw [FullCanonicalChain.getChainSegment, if_neg older]
  simp only [readerOf, viewOf, unnamed, bind, Except.bind]

theorem getCanonicalImpl (lower : startingBlock options ≤ number) (upper : number ≤ whole.info.lastBlock.number) :
    ∃ hash, whole.hashAt number = some hash ∧
      (readerOf options chain state.snapshot).getCanonicalImpl number = .ok ⟨number, hash⟩ := by
  have wf := publishing.divided.wholeWf
  obtain ⟨hash, canonical⟩ := wf.hashAt_some (publishing.divided.starts.trans_le lower) upper
  refine ⟨hash, canonical, ?_⟩
  rw [(publishing.sameAt lower).getCanonicalImpl]
  simp only [FullCanonicalChain.getCanonicalImpl, publishing.whole_getChainSegment lower, bind, Except.bind,
    Building.snapshot_canonicalAt wf canonical, Outcome.changeContext]

theorem getCanonical {hash} (canonical : whole.hashAt number = some hash) :
    (readerOf options chain state.snapshot).getCanonical number = .ok (.canonical ⟨number, hash⟩) := by
  obtain ⟨lower, upper⟩ := publishing.divided.wholeWf.hashAt_range canonical
  obtain ⟨_, isFound, answered⟩ := publishing.getCanonicalImpl (publishing.divided.starts ▸ lower) upper
  cases isFound.symm.trans canonical
  have last : (readerOf options chain state.snapshot).recent.info.lastBlock = whole.info.lastBlock :=
    publishing.divided.last
  have starts : (readerOf options chain state.snapshot).startingBlock = startingBlock options := rfl
  rw [FullCanonicalChain.getCanonical, last, if_neg (not_lt.mpr upper), starts,
    if_neg (not_lt.mpr (publishing.divided.starts ▸ lower)), answered]
  rfl

theorem getCanonical_inv
    (answered : (readerOf options chain state.snapshot).getCanonical number = .ok (.canonical cursor)) :
    cursor.number = number ∧ whole.hashAt number = some cursor.hash := by
  have last : (readerOf options chain state.snapshot).recent.info.lastBlock = whole.info.lastBlock :=
    publishing.divided.last
  have starts : (readerOf options chain state.snapshot).startingBlock = startingBlock options := rfl
  rw [FullCanonicalChain.getCanonical, last, starts] at answered
  split_ifs at answered with above below
  · cases answered
  · obtain ⟨_, -, other⟩ := bind_eq_ok.mp answered
    cases other
  · obtain ⟨_, isFound, same⟩ := bind_eq_ok.mp answered
    obtain ⟨_, canonical, looked⟩ := publishing.getCanonicalImpl (not_lt.mp below) (not_lt.mp above)
    cases looked.symm.trans isFound
    cases same
    exact ⟨rfl, canonical⟩

/-- What the next cursor says about the position of the client. -/
theorem nextCursor_cases {position answer}
    (answered : (readerOf options chain state.snapshot).getNextCursor position = .ok answer) :
    match answer with
    | .continue cursor _ => whole.hashAt cursor.number = some cursor.hash ∧
        cursor.number = position.elim (startingBlock options) (·.number + 1) ∧
        ∀ held, position = some held → whole.Has held
    | .invalidate target => ∃ held, position = some held ∧ whole.targetOf held = some target ∧
        whole.hashAt held.number ≠ some held.hash ∧
        (held.hash.isZero = true → whole.info.lastBlock.number < held.number)
    | .atHead => ∃ held, position = some held ∧ held.number = whole.info.lastBlock.number ∧ whole.Has held := by
  have wf := publishing.divided.wholeWf
  have last : (readerOf options chain state.snapshot).recent.info.lastBlock = whole.info.lastBlock :=
    publishing.divided.last
  cases position with
  | none =>
    obtain ⟨_, canonical, found⟩ :=
      publishing.getCanonicalImpl le_rfl (publishing.divided.starts ▸ wf.first_le_last)
    have starts : (readerOf options chain state.snapshot).startingBlock = startingBlock options := rfl
    simp only [FullCanonicalChain.getNextCursor, starts, found, bind, Except.bind, pure, Except.pure] at answered
    cases answered
    exact ⟨canonical, rfl, fun held same => (by cases same)⟩
  | some held =>
    by_cases lower : startingBlock options ≤ held.number
    · obtain ⟨_, _, found, wholeFound, agrees⟩ := publishing.sameAt lower
      cases (publishing.whole_getChainSegment lower).symm.trans wholeFound
      simp only [FullCanonicalChain.getNextCursor, found, bind, Except.bind, agrees.reconnect, last] at answered
      cases reconnected : whole.snapshot.reconnect held with
      | error fault =>
        cases fault <;> simp [reconnected, Outcome.changeContext] at answered
      | ok action =>
        have facts := Building.snapshot_reconnect_inv wf reconnected
        simp only [reconnected, Outcome.changeContext] at answered
        cases action with
        | «continue» =>
          simp only at answered
          split_ifs at answered with top
          · cases answered
            exact ⟨held, rfl, top, facts.2⟩
          · have inside := facts.1
            obtain ⟨_, canonical, next⟩ := publishing.getCanonicalImpl
              (Nat.le_succ_of_le lower) (show held.number + 1 ≤ whole.info.lastBlock.number by omega)
            simp only [next, pure, Except.pure] at answered
            cases answered
            refine ⟨canonical, rfl, ?_⟩
            rintro other ⟨⟩
            exact facts.2
        | offlineReorg =>
          cases answered
          exact ⟨held, rfl, facts⟩
        | unknown => simp [Outcome.fail] at answered
    · rw [FullCanonicalChain.getNextCursor, publishing.getChainSegment_below (not_le.mp lower)] at answered
      cases answered

/-- A reader of the publication is told how to go on from a block that is canonical
    or whose removal is recorded. -/
theorem getNextCursor_known {get}
    (finds : ∀ segment ∈ chain.taken, get segment.info.firstBlock.number = .ok (some segment))
    (lower : startingBlock options ≤ cursor.number) (known : whole.hashAt cursor.number = some cursor.hash ∨
      whole.hashAt cursor.number ≠ some cursor.hash ∧ cursor.hash.isZero = false ∧
        ∃ target, whole.targetOf cursor = some target) :
    ∃ answer, (viewOf options get state.snapshot).getNextCursor (some cursor) = .ok answer := by
  have wf := publishing.divided.wholeWf
  have next := Nat.le_succ_of_le lower
  have heads : (viewOf options get state.snapshot).recent.info.lastBlock =
      (viewOf options get whole.snapshot).recent.info.lastBlock := publishing.divided.last
  rw [(publishing.divided.sameAt finds lower).getNextCursor heads fun _ => publishing.divided.sameAt finds next]
  have covers : ∀ number, startingBlock options ≤ number →
      (viewOf options get whole.snapshot).getChainSegment number = .ok whole.snapshot :=
    fun _ inside => if_pos (publishing.divided.starts.trans_le inside)
  rw [FullCanonicalChain.getNextCursor]
  rcases known with canonical | ⟨foreign, nonzero, _, recorded⟩
  · have last : (viewOf options get whole.snapshot).recent.info.lastBlock = whole.info.lastBlock := rfl
    simp only [covers _ lower, bind, Except.bind, Building.snapshot_reconnect_canonical wf canonical,
      Outcome.changeContext, last]
    split_ifs with top
    · exact ⟨_, rfl⟩
    · have upper := (wf.hashAt_range canonical).2
      obtain ⟨_, following⟩ := wf.hashAt_some (publishing.divided.starts.trans_le next)
        (show cursor.number + 1 ≤ whole.info.lastBlock.number by omega)
      simp only [FullCanonicalChain.getCanonicalImpl, covers _ next, bind, Except.bind,
        Building.snapshot_canonicalAt wf following, Outcome.changeContext]
      exact ⟨_, rfl⟩
  · simp only [covers _ lower, bind, Except.bind, Building.snapshot_reconnect_removed wf foreign nonzero recorded,
      Outcome.changeContext]
    exact ⟨_, rfl⟩

/-- That covers every block that was ever accepted. -/
theorem getNextCursor_accepted (nonzero : ∀ block ∈ offered, block.hash.isZero = false) {get}
    (finds : ∀ segment ∈ chain.taken, get segment.info.firstBlock.number = .ok (some segment)) {block}
    (member : block ∈ chain.grown) :
    ∃ answer, (viewOf options get state.snapshot).getNextCursor (some block.cursor) = .ok answer := by
  have wf := publishing.divided.wholeWf
  refine publishing.getNextCursor_known finds
    (publishing.divided.starts.symm.trans_le (publishing.recorded.first_le wf member)) ?_
  by_cases canonical : whole.hashAt block.number = some block.hash
  · exact .inl canonical
  · rcases publishing.recorded.target block member with isCanonical | ⟨target, recordedAt, -⟩
    · exact absurd isCanonical canonical
    · exact .inr ⟨canonical, nonzero block (publishing.offered block member), target, recordedAt⟩

end Publishing

end Starkstream
