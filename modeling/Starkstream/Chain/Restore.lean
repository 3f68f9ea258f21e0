import Starkstream.Chain.Split

/-! # Restoring a builder from its snapshot

A restart takes the snapshot of the builder and gives it to
`restore_from_segment`.  The restored builder has an entry in its map of reorgs
for every block of the snapshot, empty or not, and none above: the
`extra_reorgs` are not read.

Two builders are compared through what can be seen of them: how every further
call ends, and what the snapshot taken after the calls answers.
-/

namespace Starkstream

open Std (ExtTreeMap)

/-- The blocks added have a hash that is not zero, so that only the direct
    successor can follow them. -/
def BuilderOp.NonZero : BuilderOp → Prop
  | .grow block => block.hash.isZero = false
  | _ => True

namespace CanonicalChainBuilder

/-- How a call ended. -/
inductive CallStatus where
  | ok
  | error
  | panic
  deriving DecidableEq

/-- How a call ended and the builder it left behind, unless it panicked. -/
def finish {α : Type} : ChainOutcome α × CanonicalChainBuilder → CallStatus × Option CanonicalChainBuilder
  | (.ok _, builder) => (.ok, some builder)
  | (.error (.error _), builder) => (.error, some builder)
  | (.error .panic, _) => (.panic, none)

def apply (builder : CanonicalChainBuilder) : BuilderOp → CallStatus × Option CanonicalChainBuilder
  | .grow block => finish (builder.grow block)
  | .shrink newHead => finish (builder.shrink newHead)
  | .takeSegment size => finish (builder.takeSegment size)

/-- What the snapshot of a builder says about a cursor. -/
def answers (builder : CanonicalChainBuilder) (cursor : Cursor) :
    ChainOutcome (ChainOutcome Cursor × ChainOutcome (List Cursor) × ChainOutcome ReconnectAction) :=
  builder.currentSegment.map fun segment =>
    (segment.canonicalAt cursor.number, segment.siblings cursor, segment.reconnect cursor)

/-- No sequence of allowed calls tells the two builders apart: the calls end
    alike, and so do the queries on the snapshots taken afterwards. -/
def Indistinguishable (allowed : BuilderOp → Prop) (left right : CanonicalChainBuilder) : Prop :=
  ∀ ops, (∀ op ∈ ops, allowed op) →
    (Runs.trace apply left ops).1 = (Runs.trace apply right ops).1 ∧
    Option.Rel (fun l r => ∀ cursor, answers l cursor = answers r cursor)
      (Runs.trace apply left ops).2 (Runs.trace apply right ops).2

/-- What a call can do to a builder with blocks.  None of it depends on the map
    of reorgs. -/
theorem apply_shape (state : Building) (op : BuilderOp) :
    (∃ status, ∀ reorgs, apply (.building (state.withReorgs reorgs)) op =
      (status, some (.building (state.withReorgs reorgs)))) ∨
    (∀ reorgs, apply (.building (state.withReorgs reorgs)) op = (.panic, none)) ∨
    (∃ block, op = .grow block ∧ canGrow (.building state) block = true ∧
      ∀ reorgs, apply (.building (state.withReorgs reorgs)) op =
        (.ok, some (.building ((state.withReorgs reorgs).grown block)))) ∨
    (∃ newHead, op = .shrink newHead ∧ state.info.firstBlock.number ≤ newHead.number ∧
      newHead.number - state.info.firstBlock.number + 1 < state.canonical.length ∧
      state.canonical[newHead.number - state.info.firstBlock.number]? = some newHead.hash ∧
      ∀ reorgs, apply (.building (state.withReorgs reorgs)) op =
        (.ok, some (.building ((state.withReorgs reorgs).shrunk newHead)))) ∨
    (∃ size lastHash nextHash, op = .takeSegment size ∧ size < state.canonical.length ∧
      state.canonical[size]? = some nextHash ∧
      ∀ reorgs, apply (.building (state.withReorgs reorgs)) op =
        (.ok, some (.building ((state.withReorgs reorgs).remaining size lastHash nextHash)))) := by
  cases op with
  | grow block =>
    have sameTest : ∀ reorgs, canGrow (.building (state.withReorgs reorgs)) block =
        canGrow (.building state) block := fun _ => rfl
    cases allowed : canGrow (.building state) block with
    | false =>
      refine .inl ⟨.error, fun reorgs => ?_⟩
      simp only [apply, grow, sameTest, allowed]
      rfl
    | true =>
      refine .inr (.inr (.inl ⟨block, rfl, allowed, fun reorgs => ?_⟩))
      rw [apply, grow_allowed ((sameTest reorgs).trans allowed)]
      rfl
  | shrink newHead =>
    rcases shrink_shape state newHead with
      ⟨-, report, failed⟩ | ⟨lower, -, known, ⟨-, done⟩ | ⟨inside, _, done⟩⟩
    · exact .inl ⟨.error, fun reorgs => by rw [apply, failed]; rfl⟩
    · exact .inl ⟨.ok, fun reorgs => by rw [apply, done]; rfl⟩
    · exact .inr (.inr (.inr (.inl ⟨newHead, rfl, lower, inside, known,
        fun reorgs => by rw [apply, done]; rfl⟩)))
  | takeSegment size =>
    rcases takeSegment_shape state size with
      ⟨_, -, failed⟩ | ⟨-, panicked⟩ | ⟨-, inside, lastHash, nextHash, nextAt, done⟩
    · exact .inl ⟨.error, fun reorgs => by rw [apply, failed]; rfl⟩
    · exact .inr (.inl fun reorgs => by rw [apply, panicked]; rfl)
    · exact .inr (.inr (.inr (.inr ⟨size, lastHash, nextHash, rfl, inside, nextAt,
        fun reorgs => by rw [apply, done]; rfl⟩)))

end CanonicalChainBuilder

/-- Two maps of reorgs that read the same at every number and have entries at
    the same numbers above `limit`. -/
structure AlikeAbove (limit : Nat) (left right : Reorgs) : Prop where
  read : ∀ number, left.getD number ∅ = right.getD number ∅
  above : ∀ number, limit < number → left[number]? = right[number]?

namespace AlikeAbove

open CanonicalChainBuilder

variable {limit : Nat} {left right : Reorgs}

theorem recordRemoved (alike : AlikeAbove limit left right) (newHead : Cursor) {number} {removed : List Hash}
    (covered : limit < number + removed.length) :
    AlikeAbove (min limit (number - 1)) (recordRemoved newHead number removed left)
      (recordRemoved newHead number removed right) := by
  refine ⟨fun m => ?_, fun m above => ?_⟩
  · rw [recordRemoved_getD, recordRemoved_getD, alike.read m]
  · rw [recordRemoved_get, recordRemoved_get, alike.read m]
    by_cases high : limit < m
    · rw [alike.above m high]
    · -- between the new head and the old limit every block is removed
      obtain ⟨hash, found⟩ : ∃ hash, removed[m - number]? = some hash :=
        ⟨_, List.getElem?_eq_getElem (by omega)⟩
      rw [if_pos (by omega), found]

theorem drained (alike : AlikeAbove limit left right) (number : Nat) (hashes : List Hash) :
    AlikeAbove limit (drainBlocks number hashes left).2 (drainBlocks number hashes right).2 := by
  refine ⟨fun m => ?_, fun m above => ?_⟩
  · rw [ExtTreeMap.getD_eq_getD_getElem?, ExtTreeMap.getD_eq_getD_getElem?, drainBlocks_reorgs,
      drainBlocks_reorgs]
    split_ifs
    · rfl
    · rw [← ExtTreeMap.getD_eq_getD_getElem?, ← ExtTreeMap.getD_eq_getD_getElem?, alike.read m]
  · rw [drainBlocks_reorgs, drainBlocks_reorgs, alike.above m above]

end AlikeAbove

/-- `state` and the same state with another map of reorgs cannot be told apart
    now: the maps are alike above a number that the chain has reached. -/
structure Close (limit : Nat) (state : Building) (reorgs : Reorgs) : Prop where
  alike : AlikeAbove limit state.reorgs reorgs
  belowLast : limit ≤ state.info.lastBlock.number
  belowEnd : limit < state.info.firstBlock.number + state.canonical.length

def CloseBuilders (limit : Nat) (left right : CanonicalChainBuilder) : Prop :=
  ∃ state reorgs, left = .building state ∧ right = .building (state.withReorgs reorgs) ∧
    Close limit state reorgs

variable {op : BuilderOp}

namespace Close

open CanonicalChainBuilder

variable {limit : Nat} {state : Building} {reorgs : Reorgs} (close : Close limit state reorgs)
include close

theorem answers_eq (cursor : Cursor) :
    answers (.building state) cursor = answers (.building (state.withReorgs reorgs)) cursor := by
  have agree : state.info.firstBlock.number ≤ cursor.number →
      CanonicalChainSegment.AgreesAt state.snapshot (state.withReorgs reorgs).snapshot
        cursor.number := by
    intro lower
    refine ⟨lower, lower, ?_⟩
    by_cases inside : cursor.number ≤ state.info.lastBlock.number
    · refine .inl ⟨inside, inside, ?_⟩
      have blocks : state.snapshot.canonical = (state.withReorgs reorgs).snapshot.canonical :=
        segmentBlocks_congr (fun m _ _ => close.alike.read m)
      rw [blocks]
      rfl
    · refine .inr ⟨not_le.mp inside, rfl, ?_⟩
      have other : (state.withReorgs reorgs).snapshot.findExtra cursor.number = reorgs[cursor.number]? :=
        Building.snapshot_extra (not_le.mp inside)
      rw [Building.snapshot_extra (not_le.mp inside), other,
        close.alike.above _ (close.belowLast.trans_lt (not_le.mp inside))]
  simp only [answers, Building.currentSegment_building, Except.map]
  by_cases lower : state.info.firstBlock.number ≤ cursor.number
  · rw [(agree lower).canonicalAt, (agree lower).siblings, (agree lower).reconnect]
  · have below : cursor.number < state.snapshot.info.firstBlock.number := not_le.mp lower
    have belowOther : cursor.number < (state.withReorgs reorgs).snapshot.info.firstBlock.number := below
    simp only [CanonicalChainSegment.canonicalAt, CanonicalChainSegment.siblings,
      CanonicalChainSegment.reconnect, if_pos below, if_pos belowOther]
    rfl

/-- A call ends alike on the two builders and leaves close builders behind, as
    long as no block is added below the limit. -/
theorem apply (high : ∀ block, op = .grow block → canGrow (.building state) block = true → limit ≤ block.number) :
    (apply (.building state) op).1 = (apply (.building (state.withReorgs reorgs)) op).1 ∧
      Option.Rel (fun l r => ∃ lower ≤ limit, CloseBuilders lower l r) (apply (.building state) op).2
        (apply (.building (state.withReorgs reorgs)) op).2 := by
  have belowEnd := close.belowEnd
  rcases apply_shape state op with
    ⟨_, same⟩ | panicked | ⟨block, rfl, allowed, done⟩ | ⟨newHead, rfl, _, inside, -, done⟩ |
    ⟨size, lastHash, nextHash, rfl, inside, -, done⟩
  · rw [same reorgs, show state = state.withReorgs state.reorgs from rfl, same state.reorgs]
    exact ⟨rfl, .some ⟨limit, le_rfl, state, reorgs, rfl, rfl, close⟩⟩
  · rw [panicked reorgs, show state = state.withReorgs state.reorgs from rfl, panicked state.reorgs]
    exact ⟨rfl, .none⟩
  · rw [done reorgs, show state = state.withReorgs state.reorgs from rfl, done state.reorgs]
    refine ⟨rfl, .some ⟨limit, le_rfl, state.grown block, reorgs, rfl, rfl,
      close.alike, high block rfl allowed, ?_⟩⟩
    exact close.belowEnd.trans (by simp [Building.grown])
  · rw [done reorgs, show state = state.withReorgs state.reorgs from rfl, done state.reorgs]
    refine ⟨rfl, .some ⟨_, min_le_left _ _, state.shrunk newHead, _, rfl, rfl,
      close.alike.recordRemoved newHead ?_, ?_, ?_⟩⟩
    · rw [List.length_drop]
      omega
    · simp only [Building.shrunk]
      omega
    · simp only [Building.shrunk, List.length_take]
      omega
  · rw [done reorgs, show state = state.withReorgs state.reorgs from rfl, done state.reorgs]
    refine ⟨rfl, .some ⟨limit, le_rfl, state.remaining size lastHash nextHash, _, rfl, rfl,
      close.alike.drained _ _, close.belowLast, ?_⟩⟩
    simp only [Building.remaining, List.length_drop]
    omega

end Close

/-- What holds of every builder with a block, whatever blocks were added. -/
structure Building.Anchored (state : Building) : Prop where
  nonempty : state.canonical ≠ []
  keys : ∀ number map, state.reorgs[number]? = some map → state.info.firstBlock.number ≤ number

/-- What holds in addition when no block with a zero hash was added. -/
structure Building.Clean (state : Building) : Prop extends state.WellFormed where
  nonzero : ∀ hash ∈ state.canonical, hash.isZero = false

namespace CanonicalChainBuilder

open Building

/-- The builder is empty, or its fields meet the predicate. -/
def Holds (property : Building → Prop) : CanonicalChainBuilder → Prop
  | .empty => True
  | .building state => property state

variable {builder next : CanonicalChainBuilder}

/-- A predicate that the first block establishes and that every change of the
    fields keeps is kept by every call. -/
theorem Holds.apply {property} (allowed : BuilderOp → Prop)
    (single : ∀ block, allowed (.grow block) → property (.single block))
    (grown : ∀ state block, property state → allowed (.grow block) →
      canGrow (.building state) block = true → property (state.grown block))
    (shrunk : ∀ state (newHead : Cursor), property state → state.info.firstBlock.number ≤ newHead.number →
      newHead.number - state.info.firstBlock.number + 1 < state.canonical.length →
      state.canonical[newHead.number - state.info.firstBlock.number]? = some newHead.hash →
      property (state.shrunk newHead))
    (remaining : ∀ state size lastHash nextHash, property state → size < state.canonical.length →
      state.canonical[size]? = some nextHash → property (state.remaining size lastHash nextHash))
    (holds : builder.Holds property) (isAllowed : allowed op) (applied : (apply builder op).2 = some next) :
    next.Holds property := by
  cases builder with
  | empty =>
    cases op with
    | grow block =>
      cases applied
      exact single block isAllowed
    | shrink | takeSegment =>
      cases applied
      trivial
  | building state =>
    rw [show state = state.withReorgs state.reorgs from rfl] at applied
    rcases apply_shape state op with
      ⟨_, same⟩ | panicked | ⟨block, rfl, canGrow, done⟩ | ⟨newHead, rfl, lower, inside, known, done⟩ |
      ⟨size, lastHash, nextHash, rfl, inside, nextAt, done⟩
    · rw [same] at applied
      cases applied
      exact holds
    · rw [panicked] at applied
      exact absurd applied (by simp)
    · rw [done] at applied
      cases applied
      exact grown state block holds isAllowed canGrow
    · rw [done] at applied
      cases applied
      exact shrunk state newHead holds lower inside known
    · rw [done] at applied
      cases applied
      exact remaining state size lastHash nextHash holds inside nextAt

theorem apply_anchored (anchored : builder.Holds Anchored) (applied : (apply builder op).2 = some next) :
    next.Holds Anchored := by
  refine anchored.apply (fun _ => True) ?_ ?_ ?_ ?_ trivial applied
  · intro block _
    exact ⟨by simp [Building.single], by simp [Building.single]⟩
  · intro state block before _ _
    exact ⟨by simp [Building.grown], before.keys⟩
  · intro state newHead before lower inside _
    refine ⟨?_, fun number map found => ?_⟩
    · simp [Building.shrunk, before.nonempty]
    · rw [shrunk_reorgs newHead number lower] at found
      split_ifs at found with above
      · exact lower.trans above.le
      · exact before.keys number map found
  · intro state size lastHash nextHash before inside _
    refine ⟨?_, fun number map found => ?_⟩
    · simp [Building.remaining, inside]
    · rw [remaining_reorgs before.keys inside.le, Option.ite_none_right_eq_some] at found
      exact found.1

theorem apply_clean (clean : builder.Holds Clean) (nonzero : op.NonZero) (applied : (apply builder op).2 = some next) :
    next.Holds Clean := by
  refine clean.apply BuilderOp.NonZero ?_ ?_ ?_ ?_ nonzero applied
  · intro block nonzero
    exact ⟨single_wellFormed block, by simpa [Building.single, BuilderOp.NonZero] using nonzero⟩
  · intro state block before nonzero allowed
    have last := before.nonzero _ (Numbered.get_mem before.lastHash)
    refine ⟨before.toWellFormed.grown (canGrow_next last allowed).1, fun hash member => ?_⟩
    rcases List.mem_append.mp member with old | new
    · exact before.nonzero hash old
    · obtain rfl := List.mem_singleton.mp new
      exact nonzero
  · intro state newHead before lower _ known
    have canonical : state.hashAt newHead.number = some newHead.hash := by
      rw [hashAt, Numbered.get_of_le _ lower]
      exact known
    exact ⟨before.toWellFormed.shrunk canonical,
      fun hash member => before.nonzero hash (List.mem_of_mem_take member)⟩
  · intro state size lastHash nextHash before inside nextAt
    exact ⟨before.toWellFormed.remaining inside nextAt,
      fun hash member => before.nonzero hash (List.mem_of_mem_drop member)⟩

theorem reached_anchored {ops} (reached : (Runs.trace apply .empty ops).2 = some builder) : builder.Holds Anchored :=
  Runs.trace_invariant (fun _ _ _ before _ => apply_anchored before)
    (show Holds Anchored .empty from trivial) (fun _ _ => trivial) reached

theorem reached_clean {ops} (nonzero : ∀ op ∈ ops, op.NonZero)
    (reached : (Runs.trace apply .empty ops).2 = some builder) : builder.Holds Clean :=
  Runs.trace_invariant (fun _ _ _ => apply_clean) (show Holds Clean .empty from trivial) nonzero reached

end CanonicalChainBuilder

namespace Building

open CanonicalChainBuilder

/-- The map of reorgs that a restored builder starts with. -/
def restoredReorgs (state : Building) : Reorgs :=
  restoreReorgs state.info.firstBlock.number state.snapshot.canonical ∅

theorem restore_snapshot (state : Building) :
    restoreFromSegment state.snapshot = .building (state.withReorgs state.restoredReorgs) := by
  simp only [restoreFromSegment, snapshot, segmentBlocks_hashes, restoredReorgs]

theorem restoredReorgs_get (state : Building) (number : Nat) :
    state.restoredReorgs[number]? =
      if state.info.firstBlock.number ≤ number ∧
          number < state.info.firstBlock.number + state.canonical.length
      then some (state.reorgs.getD number ∅) else none := by
  have length : state.snapshot.canonical.length = state.canonical.length := segmentBlocks_length _ _ _
  rw [restoredReorgs, restoreReorgs_get, length]
  split_ifs with inside
  · obtain ⟨hash, found⟩ : ∃ hash, state.canonical[number - state.info.firstBlock.number]? = some hash :=
      ⟨_, List.getElem?_eq_getElem (by omega)⟩
    rw [snapshot, segmentBlocks_get, found, Nat.add_sub_cancel' inside.1]
    rfl
  · simp

/-- The builder that a process starts with when it finds the snapshot. -/
def restored (state : Building) : Building := state.withReorgs state.restoredReorgs

variable {state : Building}

theorem WellFormed.restored (wf : state.WellFormed) : state.restored.WellFormed where
  range := wf.range
  nonempty := wf.nonempty
  firstHash := wf.firstHash
  lastHash := wf.lastHash
  keys number map found := by
    have read : state.restoredReorgs[number]? = some map := found
    rw [restoredReorgs_get, Option.ite_none_right_eq_some] at read
    exact read.1.1

/-- The restored map reads as the old one when all of the old one lies within
    the blocks of the snapshot. -/
theorem restoredReorgs_read
    (keys : ∀ number map, state.reorgs[number]? = some map → state.info.firstBlock.number ≤ number)
    (covered : ∀ number map, state.reorgs[number]? = some map →
      number < state.info.firstBlock.number + state.canonical.length) (number : Nat) :
    state.reorgs.getD number ∅ = state.restoredReorgs.getD number ∅ := by
  simp only [ExtTreeMap.getD_eq_getD_getElem?, restoredReorgs_get]
  split_ifs with inside
  · rfl
  · cases known : state.reorgs[number]? with
    | none => rfl
    | some map => exact absurd ⟨keys number map known, covered number map known⟩ inside

/-- Restoring keeps the records of every number other than 0. -/
def KeepsRecords (state : Building) : Prop :=
  ∀ number, number ≠ 0 → state.info.firstBlock.number ≤ number →
    (number ∈ state.reorgs ↔ number < state.info.firstBlock.number + state.canonical.length)

def NothingAbove (state : Building) : Prop :=
  ∀ number, number ∈ state.reorgs → number ≤ state.info.lastBlock.number

theorem mem_reorgs {number map} (known : state.reorgs[number]? = some map) : number ∈ state.reorgs :=
  ExtTreeMap.mem_iff_isSome_getElem?.mpr (by rw [known]; rfl)

theorem mem_restoredReorgs (state : Building) (number : Nat) :
    number ∈ state.restoredReorgs ↔ state.info.firstBlock.number ≤ number ∧
      number < state.info.firstBlock.number + state.canonical.length := by
  rw [ExtTreeMap.mem_iff_isSome_getElem?, restoredReorgs_get]
  split_ifs with inside
  · exact ⟨fun _ => inside, fun _ => rfl⟩
  · exact ⟨fun found => absurd found (by simp), fun within => absurd within inside⟩

theorem Anchored.close_restored (anchored : state.Anchored) (keeps : state.KeepsRecords) :
    Close 0 state state.restoredReorgs := by
  have positive := List.length_pos_iff.mpr anchored.nonempty
  refine ⟨⟨restoredReorgs_read anchored.keys fun number map known => ?_, fun number above => ?_⟩,
    Nat.zero_le _, by omega⟩
  · by_cases zero : number = 0
    · omega
    · exact (keeps number zero (anchored.keys number map known)).mp (mem_reorgs known)
  · rw [restoredReorgs_get]
    cases known : state.reorgs[number]? with
    | some map =>
      have lower := anchored.keys number map known
      rw [if_pos ⟨lower, (keeps number (by omega) lower).mp (mem_reorgs known)⟩,
        ExtTreeMap.getD_eq_getD_getElem?, known]
      rfl
    | none =>
      rw [if_neg fun inside => ?_]
      have recorded := (keeps number (by omega) inside.1).mpr inside.2
      rw [ExtTreeMap.mem_iff_isSome_getElem?, known] at recorded
      exact absurd recorded (by simp)

theorem WellFormed.close_restored (wf : state.WellFormed) (nothing : state.NothingAbove) :
    Close state.info.lastBlock.number state state.restoredReorgs := by
  have range := wf.range
  refine ⟨⟨restoredReorgs_read wf.keys fun number map known => ?_, fun number above => ?_⟩, le_rfl, by omega⟩
  · have below := nothing number (mem_reorgs known)
    omega
  · rw [restoredReorgs_get, if_neg (by omega)]
    cases known : state.reorgs[number]? with
    | none => rfl
    | some => exact absurd (nothing number (mem_reorgs known)) (not_le.mpr above)

theorem snapshot_siblings_above {cursor : Cursor} (lower : state.info.firstBlock.number ≤ cursor.number)
    (above : state.info.lastBlock.number < cursor.number) :
    state.snapshot.siblings cursor =
      match state.reorgs[cursor.number]? with
      | none => state.snapshot.afterLast cursor
      | some reorgs => .ok (reorgs.keys.map fun hash => ⟨cursor.number, hash⟩) := by
  have extra := snapshot_extra above
  rw [CanonicalChainSegment.siblings, snapshot_info, if_neg (not_lt.mpr lower), if_pos above]
  cases known : state.reorgs[cursor.number]? with
  | none | some => rw [extra.trans known]

/-- Above the last block the answers show which numbers have a record. -/
theorem mem_iff_of_answers (left right : Building) (cursor : Cursor) (sameInfo : left.info = right.info)
    (lower : left.info.firstBlock.number ≤ cursor.number)
    (above : left.info.lastBlock.number < cursor.number)
    (same : answers (.building left) cursor = answers (.building right) cursor) :
    cursor.number ∈ left.reorgs ↔ cursor.number ∈ right.reorgs := by
  have siblings : left.snapshot.siblings cursor = right.snapshot.siblings cursor :=
    congrArg (·.2.1) (Except.ok.inj same)
  rw [snapshot_siblings_above lower above,
    snapshot_siblings_above (sameInfo ▸ lower) (sameInfo ▸ above)] at siblings
  rw [ExtTreeMap.mem_iff_isSome_getElem?, ExtTreeMap.mem_iff_isSome_getElem?]
  cases leftAt : left.reorgs[cursor.number]? <;> cases rightAt : right.reorgs[cursor.number]?
  · rfl
  · simp [leftAt, rightAt, CanonicalChainSegment.afterLast, Outcome.fail] at siblings
  · simp [leftAt, rightAt, CanonicalChainSegment.afterLast, Outcome.fail] at siblings
  · simp

end Building

namespace CanonicalChainBuilder

open Building

/-- A block with a zero hash can be followed by block 0 again. -/
def backToZero (last : Cursor) : List BuilderOp :=
  [.grow ⟨last.number + 1, ⟨[]⟩, last.hash⟩, .grow ⟨0, ⟨[]⟩, ⟨[]⟩⟩]

def atZero (state : Building) : Building :=
  (state.grown ⟨state.info.lastBlock.number + 1, ⟨[]⟩, state.info.lastBlock.hash⟩).grown ⟨0, ⟨[]⟩, ⟨[]⟩⟩

theorem trace_backToZero (state : Building) :
    Runs.trace apply (.building state) (backToZero state.info.lastBlock) =
      ([.ok, .ok], some (.building (atZero state))) := by
  have first : canGrow (.building state)
      ⟨state.info.lastBlock.number + 1, ⟨[]⟩, state.info.lastBlock.hash⟩ = true := by
    simp [canGrow]
  have second : canGrow (.building
      (state.grown ⟨state.info.lastBlock.number + 1, ⟨[]⟩, state.info.lastBlock.hash⟩)) ⟨0, ⟨[]⟩, ⟨[]⟩⟩ = true := rfl
  simp only [Runs.trace, backToZero, apply, grow_allowed first, grow_allowed second, finish, atZero]

variable {left right : CanonicalChainBuilder}

theorem CloseBuilders.answers {limit} (close : CloseBuilders limit left right) (cursor : Cursor) :
    left.answers cursor = right.answers cursor := by
  obtain ⟨_, _, rfl, rfl, close⟩ := close
  exact close.answers_eq cursor

/-- A relation under which calls end alike and answers are equal, and which
    every allowed call keeps. -/
theorem indistinguishable_of_kept {allowed Rel} (alike : ∀ l r, Rel l r → ∀ cursor, l.answers cursor = r.answers cursor)
    (keep : ∀ l r op, Rel l r → allowed op →
      (apply l op).1 = (apply r op).1 ∧ Option.Rel Rel (apply l op).2 (apply r op).2) (related : Rel left right) :
    Indistinguishable allowed left right := by
  intro ops all
  obtain ⟨statuses, last⟩ := Runs.trace_lockstep keep related all
  exact ⟨statuses, Runs.rel_mono alike last⟩

theorem indistinguishable_of_close {state reorgs} (close : Close 0 state reorgs) :
    Indistinguishable (fun _ => True) (.building state) (.building (state.withReorgs reorgs)) := by
  refine indistinguishable_of_kept (fun _ _ => CloseBuilders.answers) ?_
    (show CloseBuilders 0 _ _ from ⟨state, reorgs, rfl, rfl, close⟩)
  rintro _ _ op ⟨_, _, rfl, rfl, close⟩ -
  obtain ⟨status, next⟩ := close.apply (fun block (_ : op = .grow block) _ => Nat.zero_le _)
  refine ⟨status, Runs.rel_mono ?_ next⟩
  rintro left right ⟨_, bound, builders⟩
  rwa [Nat.le_zero.mp bound] at builders

/-- Close builders of which the first never had a block with a zero hash. -/
def CleanPair (left right : CanonicalChainBuilder) : Prop :=
  left.Holds Clean ∧ ∃ limit, CloseBuilders limit left right

theorem CleanPair.apply (pair : CleanPair left right) (nonzero : op.NonZero) :
    (apply left op).1 = (apply right op).1 ∧ Option.Rel CleanPair (apply left op).2 (apply right op).2 := by
  obtain ⟨clean, _, state, reorgs, rfl, rfl, close⟩ := pair
  have last := clean.nonzero _ (Numbered.get_mem clean.lastHash)
  obtain ⟨status, next⟩ := close.apply (fun block (_ : op = .grow block) allowed => by
    have number := (canGrow_next last allowed).1
    have bound := close.belowLast
    omega)
  refine ⟨status, ?_⟩
  have kept : ∀ after, (CanonicalChainBuilder.apply (.building state) op).2 = some after → after.Holds Clean :=
    fun after => apply_clean clean nonzero
  revert next kept
  generalize (CanonicalChainBuilder.apply (.building state) op).2 = leftNext
  generalize (CanonicalChainBuilder.apply (.building (state.withReorgs reorgs)) op).2 = rightNext
  intro next kept
  cases next with
  | none => exact .none
  | some builders =>
    obtain ⟨lower, -, builders⟩ := builders
    exact .some ⟨kept _ rfl, lower, builders⟩

/-- A builder cannot be told from the one restored from its snapshot exactly
    when restoring keeps its records.  As long as no block with a zero hash is
    added, now or later, that means: exactly when no record lies above the last
    block. -/
theorem restore_indistinguishable_iff {ops : List BuilderOp} {state : Building}
    {segment : CanonicalChainSegment}
    (reached : (Runs.trace apply .empty ops).2 = some (.building state))
    (taken : currentSegment (.building state) = .ok segment) :
    (Indistinguishable (fun _ => True) (.building state) (restoreFromSegment segment) ↔
      state.KeepsRecords) ∧
    ((∀ op ∈ ops, op.NonZero) →
      (Indistinguishable BuilderOp.NonZero (.building state) (restoreFromSegment segment) ↔
        state.NothingAbove)) := by
  obtain rfl : state.snapshot = segment := Except.ok.inj taken
  rw [restore_snapshot]
  refine ⟨⟨fun same number positive lower => ?_, fun keeps => ?_⟩, fun nonzero =>
    ⟨fun same number recorded => ?_, fun nothing => ?_⟩⟩
  · -- going back to block 0 shows the records of all other numbers
    obtain ⟨-, last⟩ := same (backToZero state.info.lastBlock) (fun _ _ => trivial)
    have other := trace_backToZero (state.withReorgs state.restoredReorgs)
    simp only at other
    rw [trace_backToZero state, other] at last
    cases last with
    | some alike =>
      have shown := mem_iff_of_answers (atZero state) (atZero (state.withReorgs state.restoredReorgs))
        ⟨number, ⟨[]⟩⟩ rfl lower (Nat.pos_of_ne_zero positive) (alike _)
      exact Iff.trans shown ((mem_restoredReorgs state number).trans (and_iff_right lower))
  · have anchored : state.Anchored := reached_anchored reached
    exact indistinguishable_of_close (anchored.close_restored keeps)
  · have clean : state.Clean := reached_clean nonzero reached
    obtain ⟨-, last⟩ := same [] (fun _ absent => absurd absent List.not_mem_nil)
    cases last with
    | some alike =>
      by_contra above
      have lower := clean.keys number _ (ExtTreeMap.getElem?_eq_some_getElem recorded)
      have restored := (mem_iff_of_answers state (state.withReorgs state.restoredReorgs) ⟨number, ⟨[]⟩⟩
        rfl lower (not_le.mp above) (alike _)).mp recorded
      have inside := ((mem_restoredReorgs state number).mp restored).2
      have range := clean.range
      omega
  · have clean : state.Clean := reached_clean nonzero reached
    exact indistinguishable_of_kept (fun _ _ pair => CloseBuilders.answers pair.2.choose_spec)
      (fun _ _ _ pair isNonZero => pair.apply isNonZero)
      (show CleanPair _ _ from ⟨clean, _, state, _, rfl, rfl, clean.close_restored nothing⟩)

/-- Two blocks, of which the second is removed again. -/
def removedTip : List BuilderOp :=
  [.grow ⟨7, ⟨[1]⟩, ⟨[9]⟩⟩, .grow ⟨8, ⟨[2]⟩, ⟨[1]⟩⟩, .shrink ⟨7, ⟨[1]⟩⟩]

def removedTipState : Building :=
  ((Building.single ⟨7, ⟨[1]⟩, ⟨[9]⟩⟩).grown ⟨8, ⟨[2]⟩, ⟨[1]⟩⟩).shrunk ⟨7, ⟨[1]⟩⟩

theorem restore_indistinguishable_removedTip :
    (∀ op ∈ removedTip, op.NonZero) ∧
      (Indistinguishable BuilderOp.NonZero (.building removedTipState)
        (restoreFromSegment removedTipState.snapshot) ↔ removedTipState.NothingAbove) := by
  have nonzero : ∀ op ∈ removedTip, op.NonZero := by
    simp only [removedTip, List.forall_mem_cons, BuilderOp.NonZero]
    exact ⟨rfl, rfl, trivial, fun _ absent => absurd absent List.not_mem_nil⟩
  have reached : (Runs.trace apply .empty removedTip).2 = some (.building removedTipState) := rfl
  exact ⟨nonzero, (restore_indistinguishable_iff reached rfl).2 nonzero⟩

/-- The snapshot still sends the holder of the removed block back to block 7;
    after a restart the same block is out of range. -/
theorem restore_forgets_removedTip :
    (Runs.trace apply .empty removedTip).2 = some (.building removedTipState) ∧
      removedTipState.snapshot.reconnect ⟨8, ⟨[2]⟩⟩ = .ok (.offlineReorg ⟨7, ⟨[1]⟩⟩) ∧
      (∃ restored report, currentSegment (restoreFromSegment removedTipState.snapshot) = .ok restored ∧
        restored.reconnect ⟨8, ⟨[2]⟩⟩ = .error (.error report)) ∧
      ¬ Indistinguishable (fun _ => True) (.building removedTipState)
        (restoreFromSegment removedTipState.snapshot) := by
  refine ⟨rfl, rfl, ⟨_, _, rfl, rfl⟩, fun same => ?_⟩
  obtain ⟨-, last⟩ := same [] (fun _ absent => absurd absent List.not_mem_nil)
  cases last with
  | some alike =>
    have answer := alike ⟨8, ⟨[2]⟩⟩
    exact absurd answer (by decide)

end CanonicalChainBuilder

end Starkstream
