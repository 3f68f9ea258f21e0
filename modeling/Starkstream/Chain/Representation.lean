import Starkstream.Chain.ReorgWalk
import Starkstream.Chain.Restore

/-! # The contract of the builder

Any sequence of `grow`, `shrink`, `take_segment` and a restart from the current
segment, where the added blocks have a hash that is not zero and no empty segment
is taken.  A restart forgets the `extra_reorgs`, so the record of removed blocks is
not part of the contract; the links between the canonical blocks are.
-/

namespace Starkstream

open CanonicalChainBuilder

/-- A call on the builder, or a restart from its own snapshot. -/
inductive BuilderCall where
  | op (op : BuilderOp)
  | restore
  deriving DecidableEq

/-- The added blocks have a hash, and segments have at least one block. -/
def BuilderCall.Allowed : BuilderCall → Prop
  | .op (.grow block) => block.hash.isZero = false
  | .op (.shrink _) => True
  | .op (.takeSegment size) => 1 ≤ size
  | .restore => True

instance (call : BuilderCall) : Decidable call.Allowed :=
  match call with
  | .op (.grow _) => inferInstanceAs (Decidable (_ = _))
  | .op (.shrink _) => .isTrue trivial
  | .op (.takeSegment _) => inferInstanceAs (Decidable (_ ≤ _))
  | .restore => .isTrue trivial

namespace CanonicalChainBuilder

/-- `restore_from_segment(current_segment)`. -/
def restore (builder : CanonicalChainBuilder) : CallStatus × Option CanonicalChainBuilder :=
  match builder.currentSegment with
  | .ok segment => (.ok, some (restoreFromSegment segment))
  | .error (.error _) => (.error, some builder)
  | .error .panic => (.panic, none)

def call (builder : CanonicalChainBuilder) : BuilderCall → CallStatus × Option CanonicalChainBuilder
  | .op op => apply builder op
  | .restore => builder.restore

end CanonicalChainBuilder

/-- A builder with the blocks that `grow` accepted so far, which no call reads. -/
structure BuilderHistory where
  builder : CanonicalChainBuilder
  accepted : List BlockInfo

namespace BuilderHistory

def start : BuilderHistory := ⟨.empty, []⟩

def acceptedBy : CallStatus → BuilderCall → List BlockInfo
  | .ok, .op (.grow block) => [block]
  | _, _ => []

/-- `none` when the call panics. -/
def step (history : BuilderHistory) (call : BuilderCall) : Option BuilderHistory :=
  match history.builder.call call with
  | (status, some after) => some ⟨after, history.accepted ++ acceptedBy status call⟩
  | (_, none) => none

end BuilderHistory

variable {accepted : List BlockInfo}

namespace Building

/-- The redundant copies of the block range agree, the canonical blocks are linked
    and no reorg below the first block is kept. -/
structure Represented (accepted : List BlockInfo) (state : Building) : Prop where
  nonempty : state.canonical ≠ []
  ordered : state.info.firstBlock.number ≤ state.info.lastBlock.number
  length : state.canonical.length = state.info.lastBlock.number - state.info.firstBlock.number + 1
  firstHash : state.canonical.head? = some state.info.firstBlock.hash
  lastHash : state.canonical.getLast? = some state.info.lastBlock.hash
  linked : ∀ i hash next, state.canonical[i]? = some hash → state.canonical[i + 1]? = some next →
    ParentOf accepted ⟨state.info.firstBlock.number + i, hash⟩ ⟨state.info.firstBlock.number + i + 1, next⟩
  keys : ∀ number map, state.reorgs[number]? = some map → state.info.firstBlock.number ≤ number

/-- The blocks and reorgs of `state` are those of `segment` followed by those of
    `rest`. -/
structure SplitInto (accepted : List BlockInfo) (state : Building) (size : Nat) (segment : CanonicalChainSegment)
    (rest : Building) : Prop where
  length : segment.canonical.length = size
  hashes : segment.canonical.map (·.hash) ++ rest.canonical = state.canonical
  taken : ∀ i block, segment.canonical[i]? = some block →
    block.reorgs = state.reorgs.getD (state.info.firstBlock.number + i) ∅
  left : ∀ number, rest.reorgs[number]? =
    if number < state.info.firstBlock.number + size then none else state.reorgs[number]?
  noExtra : segment.extraReorgs = []
  segmentFirst : segment.info.firstBlock = state.info.firstBlock
  restLast : rest.info.lastBlock = state.info.lastBlock
  previous : segment.previousSegment = state.previousSegment ∧ rest.previousSegment = some segment.info
  adjacent : segment.info.lastBlock.number + 1 = rest.info.firstBlock.number
  predecessor : ParentOf accepted segment.info.lastBlock rest.info.firstBlock

/-- Consecutive canonical blocks were parent and child when they were added. -/
def Linked (accepted : List BlockInfo) (state : Building) : Prop :=
  ∀ number hash next, state.hashAt number = some hash → state.hashAt (number + 1) = some next →
    ParentOf accepted ⟨number, hash⟩ ⟨number + 1, next⟩

theorem Linked.of_hashAt {state after : Building} (linked : state.Linked accepted)
    (kept : ∀ number hash, after.hashAt number = some hash → state.hashAt number = some hash) : after.Linked accepted :=
  fun number hash next found foundNext => linked number hash next (kept _ _ found) (kept _ _ foundNext)

theorem single_linked (block : BlockInfo) (accepted : List BlockInfo) : (single block).Linked accepted := by
  intro number hash next found foundNext
  have bounds := (single_wellFormed block).hashAt_range found
  have boundsNext := (single_wellFormed block).hashAt_range foundNext
  simp only [Building.single, BlockInfo.cursor] at bounds boundsNext
  omega

theorem Linked.grown {state : Building} (linked : state.Linked accepted) (wf : state.WellFormed) {block : BlockInfo}
    (follows : block.number = state.info.lastBlock.number + 1) (parent : block.parent = state.info.lastBlock.hash) :
    (state.grown block).Linked (accepted ++ [block]) := by
  intro number hash next found foundNext
  rw [grown_hashAt wf follows] at found foundNext
  split_ifs at foundNext with new
  · rw [if_neg (by omega), show number = state.info.lastBlock.number by omega, wf.lastHash] at found
    cases found
    cases foundNext
    refine ⟨block, by simp, by rw [new]; rfl, ?_⟩
    simp only [BlockInfo.parentCursor, parent]
    rw [if_neg (by omega), ← new, Nat.add_sub_cancel]
  · have inside := wf.hashAt_range foundNext
    rw [if_neg (by omega)] at found
    exact (linked number hash next found foundNext).mono (List.subset_append_left _ _)

theorem Clean.represented {state : Building} (clean : state.Clean) (linked : state.Linked accepted) :
    state.Represented accepted where
  nonempty := clean.nonempty
  ordered := clean.toWellFormed.first_le_last
  length := by
    have range := clean.range
    have ordered := clean.toWellFormed.first_le_last
    omega
  firstHash := by
    have firstHash := clean.firstHash
    rwa [hashAt, Numbered.get_base, ← List.head?_eq_getElem?] at firstHash
  lastHash := by
    have range := clean.range
    have lastHash := clean.lastHash
    rw [hashAt, Numbered.get_of_le _ clean.toWellFormed.first_le_last] at lastHash
    rw [List.getLast?_eq_getElem?, ← lastHash]
    congr 1
    omega
  linked i hash next found foundNext := by
    apply linked
    · rwa [hashAt, Numbered.get_base_add]
    · rwa [hashAt, Nat.add_assoc, Numbered.get_base_add]
  keys := clean.keys

end Building

namespace CanonicalChainBuilder

open Building

/-- What a call can do to a builder that satisfies the contract. -/
inductive Calls : CanonicalChainBuilder → BuilderCall → CallStatus → CanonicalChainBuilder → Prop
  | failed {builder} {call} : Calls builder call .error builder
  | kept {builder} {newHead} : Calls builder (.op (.shrink newHead)) .ok builder
  | first {block} : Calls .empty (.op (.grow block)) .ok (.building (single block))
  | grown {state} {block} (allowed : canGrow (.building state) block = true) :
      Calls (.building state) (.op (.grow block)) .ok (.building (state.grown block))
  | shrunk {state} {newHead} (canonical : state.hashAt newHead.number = some newHead.hash) :
      Calls (.building state) (.op (.shrink newHead)) .ok (.building (state.shrunk newHead))
  | taken {state} {size} {lastHash nextHash} :
      Calls (.building state) (.op (.takeSegment size)) .ok (.building (state.remaining size lastHash nextHash))
  | restored {state} : Calls (.building state) .restore .ok (.building state.restored)

theorem call_grow (builder : CanonicalChainBuilder) (block : BlockInfo) :
    ∃ status after, builder.call (.op (.grow block)) = (status, some after) ∧
      Calls builder (.op (.grow block)) status after := by
  rcases grow_cases builder block with ⟨-, failed⟩ | ⟨rfl, done⟩ | ⟨_, rfl, allowed, done⟩
  · exact ⟨.error, builder, by rw [call, apply, failed]; rfl, .failed⟩
  · exact ⟨.ok, _, by rw [call, apply, done]; rfl, .first⟩
  · exact ⟨.ok, _, by rw [call, apply, done]; rfl, .grown allowed⟩

theorem call_shrink {state : Building} (wf : state.WellFormed) (newHead : Cursor) :
    ∃ status after, call (.building state) (.op (.shrink newHead)) = (status, some after) ∧
      Calls (.building state) (.op (.shrink newHead)) status after := by
  rcases shrink_cases wf newHead with ⟨-, _, failed⟩ | ⟨-, done⟩ | ⟨-, canonical, _, done⟩
  · exact ⟨.error, _, by rw [call, apply, failed]; rfl, .failed⟩
  · exact ⟨.ok, _, by rw [call, apply, done]; rfl, .kept⟩
  · exact ⟨.ok, _, by rw [call, apply, done]; rfl, .shrunk canonical⟩

theorem call_takeSegment {state : Building} (wf : state.WellFormed) {size} (positive : 1 ≤ size) :
    ∃ status after, call (.building state) (.op (.takeSegment size)) = (status, some after) ∧
      Calls (.building state) (.op (.takeSegment size)) status after := by
  rcases takeSegment_cases wf size with ⟨_, -, failed⟩ | ⟨_, -⟩ | ⟨-, -, _, _, -, done⟩
  · exact ⟨.error, _, by rw [call, apply, failed]; rfl, .failed⟩
  · omega
  · exact ⟨.ok, _, by rw [call, apply, done]; rfl, .taken⟩

variable {builder : CanonicalChainBuilder} {next : BuilderCall}

theorem call_returns (clean : builder.Holds Clean) (allowed : next.Allowed) :
    ∃ status after, builder.call next = (status, some after) ∧ Calls builder next status after := by
  cases builder with
  | empty =>
    cases next with
    | op op =>
      cases op with
      | grow block => exact call_grow .empty block
      | shrink | takeSegment => exact ⟨.error, .empty, rfl, .failed⟩
    | restore => exact ⟨.error, .empty, rfl, .failed⟩
  | building state =>
    cases next with
    | op op =>
      cases op with
      | grow block => exact call_grow (.building state) block
      | shrink newHead => exact call_shrink clean.toWellFormed newHead
      | takeSegment => exact call_takeSegment clean.toWellFormed allowed
    | restore =>
      refine ⟨.ok, .building state.restored, ?_, .restored⟩
      simp only [call, restore, currentSegment_building, restore_snapshot]
      rfl

variable {after : CanonicalChainBuilder}

theorem Calls.failed_unchanged (calls : Calls builder next .error after) : after = builder := by
  cases calls
  rfl

variable {status : CallStatus}

theorem Calls.not_panic (calls : Calls builder next status after) : status ≠ .panic := by
  cases calls <;> nofun

/-- Allowed calls keep the hashes non-zero and the copies of the range equal. -/
theorem call_clean (clean : builder.Holds Clean) (allowed : next.Allowed)
    (called : builder.call next = (status, some after)) : after.Holds Clean := by
  cases next with
  | op op =>
    have nonzero : op.NonZero := by
      cases op with
      | grow => exact allowed
      | shrink | takeSegment => trivial
    exact apply_clean clean nonzero (congrArg Prod.snd called)
  | restore =>
    cases builder with
    | empty =>
      cases called
      trivial
    | building =>
      simp only [call, restore, currentSegment_building, restore_snapshot] at called
      cases called
      exact ⟨clean.toWellFormed.restored, clean.nonzero⟩

theorem Calls.linked (calls : Calls builder next status after) (clean : builder.Holds Clean)
    (linked : builder.Holds (Linked accepted)) :
    after.Holds (Linked (accepted ++ BuilderHistory.acceptedBy status next)) := by
  cases calls with
  | failed | kept => simpa only [BuilderHistory.acceptedBy, List.append_nil] using linked
  | first => exact single_linked _ _
  | @grown state block allowed =>
    have nonzero := clean.nonzero _ (Numbered.get_mem clean.lastHash)
    obtain ⟨follows, parent⟩ := canGrow_next nonzero allowed
    exact Linked.grown linked clean.toWellFormed follows parent
  | @shrunk state newHead canonical =>
    simp only [BuilderHistory.acceptedBy, List.append_nil]
    refine Linked.of_hashAt linked fun number hash found => ?_
    rw [shrunk_hashAt newHead number (clean.toWellFormed.hashAt_range canonical).1,
      Option.ite_none_right_eq_some] at found
    exact found.2
  | taken =>
    simp only [BuilderHistory.acceptedBy, List.append_nil]
    refine Linked.of_hashAt linked fun number hash found => ?_
    rw [remaining_hashAt, Option.ite_none_right_eq_some] at found
    exact found.2
  | restored =>
    simp only [BuilderHistory.acceptedBy, List.append_nil]
    exact linked

theorem takeSegment_splits {state : Building} (clean : state.Clean) (linked : state.Linked accepted) {size}
    (positive : 1 ≤ size) {segment} (taken : takeSegment (.building state) size = (.ok segment, after)) :
    ∃ rest, after = .building rest ∧ state.SplitInto accepted size segment rest := by
  have lastAt := takeSegment_lastHash taken
  rcases takeSegment_cases clean.toWellFormed size with
    ⟨_, -, failed⟩ | ⟨_, -⟩ | ⟨-, inside, lastHash, nextHash, nextAt, done⟩
  · rw [failed] at taken
    cases taken
  · omega
  · rw [done] at taken
    cases taken
    refine ⟨_, rfl, ?_⟩
    have number : state.info.firstBlock.number + size - 1 + 1 = state.info.firstBlock.number + size := by omega
    refine ⟨?_, ?_, ?_, ?_, rfl, rfl, rfl, ⟨rfl, rfl⟩, number, ?_⟩
    · simp only [takenSegment, segmentBlocks_length, List.length_take]
      omega
    · simp only [takenSegment, remaining, segmentBlocks_hashes, List.take_append_drop]
    · intro i block found
      simp only [takenSegment, segmentBlocks_get, Option.map_eq_some_iff] at found
      obtain ⟨-, -, rfl⟩ := found
      rfl
    · intro key
      rw [remaining_reorgs clean.keys inside.le]
      by_cases below : key < state.info.firstBlock.number + size
      · rw [if_pos below, if_neg (by omega)]
      · rw [if_neg below, if_pos (by omega)]
    · have last : state.hashAt (state.info.firstBlock.number + size - 1) = some lastHash := by
        rw [Nat.add_sub_assoc positive, hashAt, Numbered.get_base_add]
        exact lastAt
      have first : state.hashAt (state.info.firstBlock.number + size - 1 + 1) = some nextHash := by
        rw [number, hashAt, Numbered.get_base_add]
        exact nextAt
      have link := linked _ _ _ last first
      rw [number] at link
      exact link

end CanonicalChainBuilder

namespace BuilderHistory

open Building

/-- The builder is empty, or clean and linked by the accepted blocks. -/
structure Kept (history : BuilderHistory) : Prop where
  clean : history.builder.Holds Clean
  linked : history.builder.Holds (Linked history.accepted)

theorem start_kept : start.Kept := ⟨trivial, trivial⟩

/-- An allowed call does not panic and keeps the invariant. -/
theorem Kept.step {history : BuilderHistory} (kept : history.Kept) {call : BuilderCall} (allowed : call.Allowed) :
    ∃ after, history.step call = some after ∧ after.Kept := by
  obtain ⟨status, after, called, calls⟩ := call_returns kept.clean allowed
  refine ⟨⟨after, history.accepted ++ acceptedBy status call⟩, ?_, ?_⟩
  · rw [BuilderHistory.step, called]
  · exact ⟨call_clean kept.clean allowed called, calls.linked kept.clean kept.linked⟩

theorem Kept.run {calls} (allowed : ∀ call ∈ calls, call.Allowed) {history : BuilderHistory} (kept : history.Kept) :
    ∃ reached, Runs.run BuilderHistory.step history calls = some reached ∧ reached.Kept := by
  induction calls generalizing history with
  | nil => exact ⟨history, rfl, kept⟩
  | cons call rest ih =>
    obtain ⟨_, stepped, keptAfter⟩ := kept.step (allowed call List.mem_cons_self)
    obtain ⟨reached, ran, keptReached⟩ :=
      ih (fun other member => allowed other (List.mem_cons_of_mem call member)) keptAfter
    exact ⟨reached, by rw [Runs.run_cons, stepped]; exact ran, keptReached⟩

/-- What can be relied on after a sequence of allowed calls. -/
structure Contract (history : BuilderHistory) : Prop where
  represented : ∀ state, history.builder = .building state → state.Represented history.accepted
  noPanic : ∀ next : BuilderCall, next.Allowed → (history.builder.call next).1 ≠ .panic
  atomic : ∀ next : BuilderCall, next.Allowed → (history.builder.call next).1 = .error →
    (history.builder.call next).2 = some history.builder
  splits : ∀ state size segment after, 1 ≤ size → history.builder = .building state →
    takeSegment (.building state) size = (.ok segment, after) →
      ∃ rest, after = .building rest ∧ state.SplitInto history.accepted size segment rest

/-- Every sequence of allowed calls runs to its end, and leaves a builder that
    satisfies the contract. -/
theorem contract_of_allowed {calls : List BuilderCall} (allowed : ∀ call ∈ calls, call.Allowed) :
    ∃ reached, Runs.run BuilderHistory.step start calls = some reached ∧ reached.Contract := by
  obtain ⟨reached, ran, kept⟩ := start_kept.run allowed
  refine ⟨reached, ran, ?_, ?_, ?_, ?_⟩
  · intro state building
    have clean := kept.clean
    have linked := kept.linked
    rw [building] at clean linked
    exact Clean.represented clean linked
  · intro next isAllowed
    obtain ⟨status, after, called, calls⟩ := call_returns kept.clean isAllowed
    rw [called]
    exact calls.not_panic
  · intro next isAllowed fails
    obtain ⟨status, after, called, calls⟩ := call_returns kept.clean isAllowed
    rw [called] at fails ⊢
    obtain rfl : status = .error := fails
    rw [calls.failed_unchanged]
  · intro state size segment after positive building taken
    have clean := kept.clean
    have linked := kept.linked
    rw [building] at clean linked
    exact takeSegment_splits clean linked positive taken

/-- Three blocks, a reorg of the last, a segment of one block and a restart. -/
def sample : List BuilderCall :=
  [.op (.grow ⟨5, ⟨[1]⟩, ⟨[]⟩⟩), .op (.grow ⟨6, ⟨[2]⟩, ⟨[1]⟩⟩), .op (.grow ⟨7, ⟨[3]⟩, ⟨[2]⟩⟩),
    .op (.shrink ⟨6, ⟨[2]⟩⟩), .op (.grow ⟨7, ⟨[4]⟩, ⟨[2]⟩⟩), .op (.takeSegment 1), .restore]

theorem contract_of_allowed_sample : (∀ call ∈ sample, call.Allowed) ∧
    ∃ reached, Runs.run BuilderHistory.step start sample = some reached ∧ reached.Contract := by
  have allowed : ∀ call ∈ sample, call.Allowed := by decide
  exact ⟨allowed, contract_of_allowed allowed⟩

end BuilderHistory

end Starkstream
