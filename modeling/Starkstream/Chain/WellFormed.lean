import Starkstream.Chain.Lookup
import Starkstream.Lib.Numbered

/-! # The representation invariant of the builder

The block range is stored redundantly, and `WellFormed` says that the copies
agree.  One lemma per operation says what a successful call does to a well
formed builder; the invariant and everything observed through a snapshot follow
from these.
-/

namespace Starkstream

open Std (ExtTreeMap)
open CanonicalChainBuilder

namespace Building

/-- The hash of the canonical block with the given number. -/
def hashAt (state : Building) (number : Nat) : Option Hash :=
  Numbered.get state.info.firstBlock.number state.canonical number

def targetOf (state : Building) (cursor : Cursor) : Option Cursor :=
  (state.reorgs[cursor.number]?).bind (·[cursor.hash]?)

/-- The canonical block with the given number as a snapshot stores it. -/
def blockAt (state : Building) (number : Nat) : Option CanonicalBlock :=
  (state.hashAt number).map (fun hash => ⟨hash, state.reorgs.getD number ∅⟩)

structure WellFormed (state : Building) : Prop where
  range : state.info.firstBlock.number + state.canonical.length = state.info.lastBlock.number + 1
  nonempty : state.canonical ≠ []
  firstHash : state.hashAt state.info.firstBlock.number = some state.info.firstBlock.hash
  lastHash : state.hashAt state.info.lastBlock.number = some state.info.lastBlock.hash
  keys : ∀ number map, state.reorgs[number]? = some map → state.info.firstBlock.number ≤ number

variable {state : Building}

section
variable (wf : state.WellFormed)
include wf

theorem WellFormed.first_le_last : state.info.firstBlock.number ≤ state.info.lastBlock.number := by
  have positive := List.length_pos_iff.mpr wf.nonempty
  have range := wf.range
  omega

theorem hashAt_isSome_iff (number : Nat) :
    (state.hashAt number).isSome ↔
      state.info.firstBlock.number ≤ number ∧ number ≤ state.info.lastBlock.number := by
  have range := wf.range
  rw [hashAt, Numbered.get_isSome_iff]
  omega

theorem WellFormed.hashAt_range {number hash} (canonical : state.hashAt number = some hash) :
    state.info.firstBlock.number ≤ number ∧ number ≤ state.info.lastBlock.number :=
  (hashAt_isSome_iff wf number).mp (by rw [canonical]; rfl)

theorem WellFormed.hashAt_some {number} (lower : state.info.firstBlock.number ≤ number)
    (upper : number ≤ state.info.lastBlock.number) : ∃ hash, state.hashAt number = some hash :=
  Option.isSome_iff_exists.mp ((hashAt_isSome_iff wf number).mpr ⟨lower, upper⟩)

end

def single (block : BlockInfo) : Building :=
  { previousSegment := none
    info := { firstBlock := block.cursor, lastBlock := block.cursor }
    canonical := [block.hash]
    reorgs := ∅ }

/-- The builder after `grow`. -/
def grown (state : Building) (block : BlockInfo) : Building :=
  { state with
    info := { state.info with lastBlock := block.cursor }
    canonical := state.canonical ++ [block.hash] }

/-- The builder after a `shrink` that removed something. -/
def shrunk (state : Building) (newHead : Cursor) : Building :=
  let kept := newHead.number - state.info.firstBlock.number + 1
  { state with
    info := { state.info with lastBlock := newHead }
    canonical := state.canonical.take kept
    reorgs := recordRemoved newHead (state.info.firstBlock.number + kept)
      (state.canonical.drop kept) state.reorgs }

/-- The builder after any successful `shrink`. -/
def shrinkTo (state : Building) (newHead : Cursor) : Building :=
  if newHead = state.info.lastBlock then state else state.shrunk newHead

abbrev withReorgs (state : Building) (reorgs : Reorgs) : Building :=
  { state with reorgs := reorgs }

/-- The segment that `take_segment` returns. -/
def takenSegment (state : Building) (size : Nat) (lastHash : Hash) : CanonicalChainSegment :=
  { previousSegment := state.previousSegment
    info :=
      { firstBlock := state.info.firstBlock
        lastBlock := ⟨state.info.firstBlock.number + size - 1, lastHash⟩ }
    canonical := segmentBlocks state.info.firstBlock.number (state.canonical.take size) state.reorgs
    extraReorgs := [] }

/-- The builder that `take_segment` leaves behind. -/
def remaining (state : Building) (size : Nat) (lastHash nextHash : Hash) : Building :=
  { previousSegment := some (state.takenSegment size lastHash).info
    info := { state.info with firstBlock := ⟨state.info.firstBlock.number + size, nextHash⟩ }
    canonical := state.canonical.drop size
    reorgs := (drainBlocks state.info.firstBlock.number (state.canonical.take size) state.reorgs).2 }

end Building

variable {block : BlockInfo}

namespace CanonicalChainBuilder

variable {state : Building}

theorem grow_allowed (allowed : canGrow (.building state) block = true) :
    grow (.building state) block = (.ok (), .building (state.grown block)) := by
  simp [grow, allowed, Building.grown]

theorem grow_cases (builder : CanonicalChainBuilder) (block : BlockInfo) :
    (builder.canGrow block = false ∧
      builder.grow block =
        (Outcome.fail .builder ["block cannot be applied to the current segment"], builder)) ∨
    (builder = .empty ∧ builder.grow block = (.ok (), .building (Building.single block))) ∨
    (∃ state, builder = .building state ∧ builder.canGrow block = true ∧
      builder.grow block = (.ok (), .building (state.grown block))) := by
  cases allowed : builder.canGrow block with
  | false => exact .inl ⟨rfl, by simp [grow, allowed]⟩
  | true =>
    cases builder with
    | empty => exact .inr (.inl ⟨rfl, by simp [grow, allowed, Building.single]⟩)
    | building state => exact .inr (.inr ⟨state, rfl, rfl, grow_allowed allowed⟩)

/-- No call of `grow` or `shrink` moves the first block. -/
theorem grow_first (state : Building) (block : BlockInfo) :
    ∃ after, (grow (.building state) block).2 = .building after ∧
      after.info.firstBlock = state.info.firstBlock := by
  unfold grow
  split_ifs <;> exact ⟨_, rfl, rfl⟩

theorem shrink_first (state : Building) (newHead : Cursor) :
    ∃ after, (shrink (.building state) newHead).2 = .building after ∧
      after.info.firstBlock = state.info.firstBlock := by
  unfold shrink
  simp only
  split_ifs <;> exact ⟨_, rfl, rfl⟩

/-- What a call of `shrink` can do.  No branch depends on the map of reorgs. -/
theorem shrink_shape (state : Building) (newHead : Cursor) :
    ((state.info.firstBlock.number ≤ newHead.number →
        newHead.number ≤ state.info.lastBlock.number →
        state.canonical[newHead.number - state.info.firstBlock.number]? ≠ some newHead.hash) ∧
      ∃ report, ∀ reorgs, shrink (.building (state.withReorgs reorgs)) newHead =
        (.error (.error report), .building (state.withReorgs reorgs))) ∨
    (state.info.firstBlock.number ≤ newHead.number ∧
      newHead.number ≤ state.info.lastBlock.number ∧
      state.canonical[newHead.number - state.info.firstBlock.number]? = some newHead.hash ∧
      ((newHead.number - state.info.firstBlock.number = state.canonical.length - 1 ∧
        ∀ reorgs, shrink (.building (state.withReorgs reorgs)) newHead =
          (.ok [], .building (state.withReorgs reorgs))) ∨
      (newHead.number - state.info.firstBlock.number + 1 < state.canonical.length ∧
        ∃ removed, ∀ reorgs, shrink (.building (state.withReorgs reorgs)) newHead =
          (.ok removed, .building ((state.withReorgs reorgs).shrunk newHead))))) := by
  unfold shrink
  simp only [Building.withReorgs]
  by_cases before : newHead.number < state.info.firstBlock.number
  · refine .inl ⟨fun _ => by omega, _, fun reorgs => if_pos before⟩
  by_cases after : newHead.number > state.info.lastBlock.number
  · exact .inl ⟨fun _ _ => by omega, _, fun reorgs => (if_neg before).trans (if_pos after)⟩
  by_cases known : state.canonical[newHead.number - state.info.firstBlock.number]? = some newHead.hash
  swap
  · exact .inl ⟨fun _ _ => known, _,
      fun reorgs => (if_neg before).trans ((if_neg after).trans (if_pos known))⟩
  have inside := (List.getElem?_eq_some_iff.mp known).1
  refine .inr ⟨not_lt.mp before, not_lt.mp after, known, ?_⟩
  by_cases top : newHead.number - state.info.firstBlock.number = state.canonical.length - 1
  · refine .inl ⟨top, fun reorgs => ?_⟩
    rw [if_neg before, if_neg after, if_neg (not_not_intro known), if_pos top]
  · -- the sanity assertion: the truncated list has the length the numbers ask for
    have checked : (state.canonical.take (newHead.number - state.info.firstBlock.number + 1)).length =
        newHead.number - state.info.firstBlock.number + 1 := by
      rw [List.length_take]
      omega
    exact .inr ⟨by omega, _, fun reorgs => (if_neg before).trans ((if_neg after).trans
      ((if_neg (not_not_intro known)).trans ((if_neg top).trans (if_pos checked))))⟩

theorem shrink_cases (wf : state.WellFormed) (newHead : Cursor) :
    (state.hashAt newHead.number ≠ some newHead.hash ∧
      ∃ report, shrink (.building state) newHead = (.error (.error report), .building state)) ∨
    (newHead = state.info.lastBlock ∧
      shrink (.building state) newHead = (.ok [], .building state)) ∨
    (newHead.number < state.info.lastBlock.number ∧
      state.hashAt newHead.number = some newHead.hash ∧
      ∃ removed, shrink (.building state) newHead = (.ok removed, .building (state.shrunk newHead))) := by
  have range := wf.range
  rcases shrink_shape state newHead with
    ⟨foreign, report, failed⟩ | ⟨lower, upper, known, ⟨_, done⟩ | ⟨_, removed, done⟩⟩
  · refine .inl ⟨fun canonical => ?_, report, failed state.reorgs⟩
    obtain ⟨lower, upper⟩ := wf.hashAt_range canonical
    rw [Building.hashAt, Numbered.get_of_le _ lower] at canonical
    exact foreign lower upper canonical
  · have lastHash := wf.lastHash
    have sameNumber : newHead.number = state.info.lastBlock.number := by
      have positive := List.length_pos_iff.mpr wf.nonempty
      omega
    rw [← sameNumber, Building.hashAt, Numbered.get_of_le _ lower, known] at lastHash
    exact .inr (.inl ⟨Cursor.ext sameNumber (Option.some.inj lastHash), done state.reorgs⟩)
  · refine .inr (.inr ⟨by omega, ?_, removed, done state.reorgs⟩)
    rw [Building.hashAt, Numbered.get_of_le _ lower]
    exact known

theorem shrink_canonical (wf : state.WellFormed) {newHead : Cursor}
    (canonical : state.hashAt newHead.number = some newHead.hash) (below : newHead.number < state.info.lastBlock.number) :
    ∃ removed, shrink (.building state) newHead = (.ok removed, .building (state.shrunk newHead)) := by
  rcases shrink_cases wf newHead with ⟨foreign, -⟩ | ⟨top, -⟩ | ⟨-, -, done⟩
  · exact absurd canonical foreign
  · exact absurd below (top ▸ lt_irrefl _)
  · exact done

/-- What a call of `take_segment` can do.  No branch depends on the map of
    reorgs. -/
theorem takeSegment_shape (state : Building) (size : Nat) :
    (∃ report, state.info.lastBlock.number - state.info.firstBlock.number < size ∧
      ∀ reorgs, takeSegment (.building (state.withReorgs reorgs)) size =
        (.error (.error report), .building (state.withReorgs reorgs))) ∨
    ((state.info.lastBlock.number < state.info.firstBlock.number ∨ size = 0 ∨
        state.canonical.length ≤ size ∧ state.info.firstBlock.number + size ≤ state.info.lastBlock.number) ∧
      ∀ reorgs, takeSegment (.building (state.withReorgs reorgs)) size =
        (.error .panic, .building (state.withReorgs reorgs))) ∨
    (0 < size ∧ size < state.canonical.length ∧ ∃ lastHash nextHash,
      state.canonical[size]? = some nextHash ∧
      ∀ reorgs, takeSegment (.building (state.withReorgs reorgs)) size =
        (.ok ((state.withReorgs reorgs).takenSegment size lastHash),
          .building ((state.withReorgs reorgs).remaining size lastHash nextHash))) := by
  unfold takeSegment
  simp only [Building.withReorgs]
  by_cases reversed : state.info.lastBlock.number < state.info.firstBlock.number
  · exact .inr (.inl ⟨.inl reversed, fun reorgs => if_pos reversed⟩)
  by_cases small : state.info.lastBlock.number - state.info.firstBlock.number < size
  · exact .inl ⟨_, small, fun reorgs => (if_neg reversed).trans (if_pos small)⟩
  by_cases zero : size = 0
  · refine .inr (.inl ⟨.inr (.inl zero), fun reorgs => ?_⟩)
    rw [if_neg reversed, if_neg small, if_pos zero]
  simp only [if_neg reversed, if_neg small, if_neg zero]
  cases nextAt : state.canonical[size]? with
  | none =>
    have short := List.getElem?_eq_none_iff.mp nextAt
    refine .inr (.inl ⟨.inr (.inr ⟨short, by omega⟩), fun reorgs => ?_⟩)
    cases state.canonical[size - 1]? <;> rfl
  | some nextHash =>
    have inside := (List.getElem?_eq_some_iff.mp nextAt).1
    obtain ⟨lastHash, lastAt⟩ : ∃ hash, state.canonical[size - 1]? = some hash :=
      ⟨_, List.getElem?_eq_getElem (by omega)⟩
    refine .inr (.inr ⟨by omega, inside, lastHash, nextHash, rfl, fun reorgs => ?_⟩)
    simp only [lastAt, drainBlocks_blocks]
    rfl

/-- The last hash of the segment is the last of the drained hashes. -/
theorem takeSegment_lastHash {size segment after} (taken : takeSegment (.building state) size = (.ok segment, after)) :
    state.canonical[size - 1]? = some segment.info.lastBlock.hash := by
  unfold takeSegment at taken
  simp only at taken
  split_ifs at taken with reversed small zero
  · cases taken
  · cases taken
  · cases taken
  · split at taken
    · next lastHash nextHash lastAt nextAt =>
        cases taken
        exact lastAt
    · cases taken

theorem takeSegment_cases (wf : state.WellFormed) (size : Nat) :
    (∃ report, state.canonical.length ≤ size ∧
      takeSegment (.building state) size = (.error (.error report), .building state)) ∨
    (size = 0 ∧ takeSegment (.building state) size = (.error .panic, .building state)) ∨
    (0 < size ∧ size < state.canonical.length ∧ ∃ lastHash nextHash,
      state.canonical[size]? = some nextHash ∧
      takeSegment (.building state) size =
        (.ok (state.takenSegment size lastHash), .building (state.remaining size lastHash nextHash))) := by
  have range := wf.range
  have ordered := wf.first_le_last
  rcases takeSegment_shape state size with
    ⟨report, _, failed⟩ | ⟨_, panicked⟩ | ⟨positive, inside, lastHash, nextHash, nextAt, done⟩
  · exact .inl ⟨report, by omega, failed state.reorgs⟩
  · refine .inr (.inl ⟨?_, panicked state.reorgs⟩)
    omega
  · exact .inr (.inr ⟨positive, inside, lastHash, nextHash, nextAt, done state.reorgs⟩)

/-- Above a block with a non-zero hash only its direct successor can be added. -/
theorem canGrow_next (nonzero : state.info.lastBlock.hash.isZero = false)
    (allowed : canGrow (.building state) block = true) :
    block.number = state.info.lastBlock.number + 1 ∧ block.parent = state.info.lastBlock.hash := by
  simp only [canGrow, nonzero, Bool.false_eq_true, if_false, Bool.and_eq_true, decide_eq_true_eq,
    beq_iff_eq] at allowed
  exact ⟨allowed.1.symm, allowed.2.symm⟩

end CanonicalChainBuilder

namespace Building

theorem single_wellFormed (block : BlockInfo) : (single block).WellFormed where
  range := rfl
  nonempty := by simp [single]
  firstHash := Numbered.get_base _ _
  lastHash := Numbered.get_base _ _
  keys := by simp [single]

section
variable (state : Building)
include state

@[simp] theorem grown_first (block : BlockInfo) :
    (state.grown block).info.firstBlock = state.info.firstBlock := rfl

@[simp] theorem grown_last (block : BlockInfo) :
    (state.grown block).info.lastBlock = block.cursor := rfl

@[simp] theorem grown_reorgs (block : BlockInfo) :
    (state.grown block).reorgs = state.reorgs := rfl

@[simp] theorem shrunk_first (newHead : Cursor) :
    (state.shrunk newHead).info.firstBlock = state.info.firstBlock := rfl

@[simp] theorem shrunk_last (newHead : Cursor) :
    (state.shrunk newHead).info.lastBlock = newHead := rfl

@[simp] theorem remaining_first (size : Nat) (lastHash nextHash : Hash) :
    (state.remaining size lastHash nextHash).info.firstBlock =
      ⟨state.info.firstBlock.number + size, nextHash⟩ := rfl

@[simp] theorem remaining_last (size : Nat) (lastHash nextHash : Hash) :
    (state.remaining size lastHash nextHash).info.lastBlock = state.info.lastBlock := rfl

end

variable {state : Building}

section
variable (wf : state.WellFormed) (next : block.number = state.info.lastBlock.number + 1)
include wf next

theorem grown_hashAt (number : Nat) :
    (state.grown block).hashAt number =
      if number = block.number then some block.hash else state.hashAt number := by
  rw [next, ← wf.range]
  exact Numbered.get_snoc _ _ _ _

theorem WellFormed.grown : (state.grown block).WellFormed where
  range := by
    have range := wf.range
    simp only [Building.grown, BlockInfo.cursor, List.length_append, List.length_singleton]
    omega
  nonempty := by simp [Building.grown]
  firstHash := by
    have ordered := wf.first_le_last
    rw [grown_hashAt wf next, grown_first, if_neg (by omega)]
    exact wf.firstHash
  lastHash := by
    rw [grown_hashAt wf next, grown_last, BlockInfo.cursor, if_pos rfl]
  keys := wf.keys

end

section
variable (newHead : Cursor) (number : Nat) (lower : state.info.firstBlock.number ≤ newHead.number)
include newHead number lower

theorem shrunk_hashAt :
    (state.shrunk newHead).hashAt number =
      if number ≤ newHead.number then state.hashAt number else none := by
  simp only [hashAt, shrunk, Numbered.get_take]
  congr 1
  rw [eq_iff_iff]
  omega

theorem shrunk_reorgs :
    (state.shrunk newHead).reorgs[number]? =
      if newHead.number < number then
        match state.hashAt number with
        | some hash => some ((state.reorgs.getD number ∅).insert hash newHead)
        | none => state.reorgs[number]?
      else state.reorgs[number]? := by
  simp only [shrunk, recordRemoved_get, List.getElem?_drop]
  by_cases above : newHead.number < number
  · have position : newHead.number - state.info.firstBlock.number + 1 +
        (number - (state.info.firstBlock.number + (newHead.number - state.info.firstBlock.number + 1))) =
        number - state.info.firstBlock.number := by omega
    have canonical : state.hashAt number = state.canonical[number - state.info.firstBlock.number]? :=
      Numbered.get_of_le _ (by omega)
    rw [position, if_pos (by omega), if_pos above]
    cases known : state.canonical[number - state.info.firstBlock.number]? with
    | none | some => rw [canonical.trans known]
  · rw [if_neg (by omega), if_neg above]

end

theorem shrunk_targetOf (newHead cursor : Cursor) (lower : state.info.firstBlock.number ≤ newHead.number) :
    (state.shrunk newHead).targetOf cursor =
      if newHead.number < cursor.number ∧ state.hashAt cursor.number = some cursor.hash
      then some newHead else state.targetOf cursor := by
  rw [targetOf, shrunk_reorgs newHead _ lower]
  by_cases above : newHead.number < cursor.number
  · simp only [above, if_true, true_and, targetOf]
    cases canonical : state.hashAt cursor.number with
    | none => simp
    | some hash =>
      simp only [Option.bind_some, ExtTreeMap.getElem?_insert, Std.compare_eq_iff_eq,
        Option.some.injEq, ExtTreeMap.getD_eq_getD_getElem?]
      by_cases same : hash = cursor.hash
      · rw [if_pos same, if_pos same]
      · rw [if_neg same, if_neg same]
        cases state.reorgs[cursor.number]? <;> simp
  · simp only [above, false_and, if_false, targetOf]

variable {newHead : Cursor}

theorem WellFormed.shrunk (wf : state.WellFormed) (canonical : state.hashAt newHead.number = some newHead.hash) :
    (state.shrunk newHead).WellFormed := by
  obtain ⟨lower, _⟩ := wf.hashAt_range canonical
  have range := wf.range
  have length : (state.shrunk newHead).canonical.length =
      newHead.number - state.info.firstBlock.number + 1 := by
    simp only [Building.shrunk, List.length_take]
    omega
  refine ⟨?_, ?_, ?_, ?_, ?_⟩
  · rw [length]
    simp only [Building.shrunk]
    omega
  · exact List.length_pos_iff.mp (by omega)
  · rw [shrunk_hashAt newHead _ lower, shrunk_first, if_pos lower]
    exact wf.firstHash
  · rw [shrunk_hashAt newHead _ lower, shrunk_last, if_pos le_rfl]
    exact canonical
  · intro number map found
    rw [shrunk_first]
    by_contra below
    rw [shrunk_reorgs newHead number lower, if_neg (by omega)] at found
    exact below (wf.keys number map found)

theorem shrinkTo_first (state : Building) (newHead : Cursor) :
    (state.shrinkTo newHead).info.firstBlock = state.info.firstBlock := by
  unfold shrinkTo
  split_ifs <;> rfl

theorem shrinkTo_last (state : Building) (newHead : Cursor) :
    (state.shrinkTo newHead).info.lastBlock = newHead := by
  unfold shrinkTo
  split_ifs with top
  · exact top.symm
  · rfl

section
variable (wf : state.WellFormed) (canonical : state.hashAt newHead.number = some newHead.hash)
include wf canonical

theorem WellFormed.shrinkTo : (state.shrinkTo newHead).WellFormed := by
  unfold Building.shrinkTo
  split_ifs
  · exact wf
  · exact wf.shrunk canonical

theorem shrinkTo_hashAt (number : Nat) :
    (state.shrinkTo newHead).hashAt number =
      if number ≤ newHead.number then state.hashAt number else none := by
  rw [shrinkTo]
  by_cases top : newHead = state.info.lastBlock
  · rw [if_pos top]
    by_cases inside : number ≤ newHead.number
    · rw [if_pos inside]
    · rw [if_neg inside]
      cases found : state.hashAt number with
      | none => rfl
      | some => exact absurd (top ▸ (wf.hashAt_range found).2) inside
  · rw [if_neg top, shrunk_hashAt newHead number (wf.hashAt_range canonical).1]

theorem shrink_shrinkTo :
    ∃ removed, shrink (.building state) newHead = (.ok removed, .building (state.shrinkTo newHead)) := by
  rcases shrink_cases wf newHead with ⟨foreign, -⟩ | ⟨top, done⟩ | ⟨below, -, removed, done⟩
  · exact absurd canonical foreign
  · exact ⟨[], by rw [done, shrinkTo, if_pos top]⟩
  · refine ⟨removed, ?_⟩
    have lower : newHead ≠ state.info.lastBlock := fun top => absurd below (top ▸ lt_irrefl _)
    rw [done, shrinkTo, if_neg lower]

end

theorem remaining_hashAt (state : Building) (size : Nat) (lastHash nextHash : Hash) (number : Nat) :
    (state.remaining size lastHash nextHash).hashAt number =
      if state.info.firstBlock.number + size ≤ number then state.hashAt number else none :=
  Numbered.get_drop _ _ _ _

theorem remaining_reorgs (keys : ∀ number map, state.reorgs[number]? = some map → state.info.firstBlock.number ≤ number)
    {size} (inside : size ≤ state.canonical.length) (lastHash nextHash : Hash) (number : Nat) :
    (state.remaining size lastHash nextHash).reorgs[number]? =
      if state.info.firstBlock.number + size ≤ number then state.reorgs[number]? else none := by
  simp only [remaining, drainBlocks_reorgs, List.length_take, Nat.min_eq_left inside]
  by_cases left : state.info.firstBlock.number + size ≤ number
  · rw [if_pos left, if_neg (by omega)]
  · rw [if_neg left]
    by_cases drained : state.info.firstBlock.number ≤ number
    · rw [if_pos (by omega)]
    · rw [if_neg (by omega)]
      cases known : state.reorgs[number]? with
      | none => rfl
      | some map => exact absurd (keys number map known) drained

theorem WellFormed.remaining (wf : state.WellFormed) {size} (inside : size < state.canonical.length) {lastHash nextHash}
    (nextAt : state.canonical[size]? = some nextHash) : (state.remaining size lastHash nextHash).WellFormed := by
  have range := wf.range
  refine ⟨?_, ?_, ?_, ?_, ?_⟩
  · simp only [Building.remaining, List.length_drop]
    omega
  · apply List.length_pos_iff.mp
    simp only [Building.remaining, List.length_drop]
    omega
  · rw [remaining_hashAt, remaining_first, if_pos le_rfl]
    exact (Numbered.get_base_add _ _ size).trans nextAt
  · rw [remaining_hashAt, remaining_last, if_pos (by omega)]
    exact wf.lastHash
  · intro number map found
    rw [remaining_reorgs wf.keys inside.le] at found
    rw [remaining_first]
    by_contra below
    rw [if_neg below] at found
    exact Option.some_ne_none map found.symm

end Building

end Starkstream
