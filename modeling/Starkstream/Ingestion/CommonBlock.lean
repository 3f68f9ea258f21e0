import Starkstream.Chain.Representation
import Starkstream.Ingestion.Chains
import Starkstream.Ingestion.Recovery

/-! # What a recovery keeps

A recovery goes down the ingested chain to the highest block that the node has, and
removes what is above it.  The blocks below it are those of the node too, because a
block is only added on top of its parent and a hash determines the parent of its
block.  This fails below a block whose hash is zero: any block can be added on top
of it.
-/

namespace Starkstream

open CanonicalChainBuilder
open IngestionService

variable {chain : Building}

namespace IngestionService

/-- The recorded target of a block that was reorged. -/
def reorgTarget (service : IngestionService) (cursor : Cursor) : Option Cursor :=
  match service.chainBuilder with
  | .empty => none
  | .building chain => chain.targetOf cursor

variable {service : IngestionService} {state : RecoverState} {poll : Nat → RecoverPoll}

theorem recoverCall_cases (world : World) (snapshot recent : Answer Unit)
    (builder : service.chainBuilder = .building chain)
    (wf : chain.WellFormed) (last : chain.info.lastBlock = state.lastIngested) :
    (∃ fault, recoverCall world service state poll snapshot recent = (.error fault, service)) ∨
    recoverCall world service state poll snapshot recent = (.ok (.recover state), service) ∨
    (∃ newHead, findCommonBlock chain.snapshot poll state.lastIngested.number state.lastIngested.hash =
        .ok (some newHead) ∧
      recoverCall world service state poll snapshot recent =
        (do publishAnswer snapshot recent; return recovered state newHead,
          service.taskQueueClear.withChain (chain.shrinkTo newHead))) := by
  have lastHash : chain.hashAt state.lastIngested.number = some state.lastIngested.hash := last ▸ wf.lastHash
  have head := recoveryHead_eq poll builder wf lastHash
  rcases tickRecover_cases world service state poll builder wf last with
    ⟨fault, found, failed⟩ | ⟨found, cancelled⟩ | ⟨newHead, found, done⟩
  · refine .inl ⟨fault, ?_⟩
    simp only [recoverCall, failed, head, found]
    rfl
  · refine .inr (.inl ?_)
    simp only [recoverCall, cancelled, head, found]
    rfl
  · refine .inr (.inr ⟨newHead, found, ?_⟩)
    simp only [recoverCall, done, head, found, shrinkTo_eq builder wf (findCommonBlock_some wf lastHash found).2.1]
    rfl

/-- The writes of the recent segment do not fail as a request for a block does. -/
theorem publishAnswer_context {snapshot recent : Answer Unit} {report}
    (failed : publishAnswer snapshot recent = .error (.error report)) : report.context ≠ .rpcRequest := by
  cases snapshot with
  | error =>
    cases failed
    exact nofun
  | ok =>
    cases recent with
    | error =>
      cases failed
      exact nofun
    | ok => cases failed

end IngestionService

/-! ## The chain is linked -/

/-- The blocks that were offered to the builder in a run. -/
def offeredBlocks (options : IngestionServiceOptions) (inputs : List Input) : List BlockInfo :=
  inputs.flatMap fun input => (input.event.offered options).toList

/-- The chain consists of the given blocks, each on top of its parent. -/
structure Building.BuiltFrom (blocks : List BlockInfo) (chain : Building) : Prop where
  known : ∀ number hash, chain.hashAt number = some hash → ∃ block ∈ blocks, block.cursor = ⟨number, hash⟩
  linked : chain.Linked blocks

namespace Building.BuiltFrom

variable {blocks more : List BlockInfo} {after : Building}

theorem mono (built : chain.BuiltFrom blocks) (included : blocks ⊆ more)
    (kept : ∀ number hash, after.hashAt number = some hash → chain.hashAt number = some hash) :
    after.BuiltFrom more := by
  constructor
  · intro number hash found
    obtain ⟨block, member, same⟩ := built.known number hash (kept number hash found)
    exact ⟨block, included member, same⟩
  · intro number hash next found foundNext
    exact (built.linked.of_hashAt kept number hash next found foundNext).mono included

theorem single (block : BlockInfo) : (Building.single block).BuiltFrom [block] := by
  refine ⟨fun number hash found => ?_, single_linked block _⟩
  obtain ⟨lower, upper⟩ := (single_wellFormed block).hashAt_range found
  obtain rfl : block.number = number := le_antisymm lower upper
  have first := (single_wellFormed block).firstHash
  exact ⟨block, List.mem_singleton_self block, Cursor.ext rfl (Option.some.inj (first.symm.trans found))⟩

theorem grown (built : chain.BuiltFrom blocks) (wf : chain.WellFormed) {block : BlockInfo}
    (follows : block.number = chain.info.lastBlock.number + 1) (allowed : canGrow (.building chain) block = true)
    (nonzero : ∀ known ∈ blocks, known.hash.isZero = false) : (chain.grown block).BuiltFrom (blocks ++ [block]) := by
  constructor
  · intro number hash found
    rw [grown_hashAt wf follows] at found
    split_ifs at found with new
    · exact ⟨block, by simp, Cursor.ext new.symm (Option.some.inj found)⟩
    · obtain ⟨known, member, same⟩ := built.known number hash found
      exact ⟨known, List.mem_append_left _ member, same⟩
  · obtain ⟨last, member, same⟩ := built.known _ _ wf.lastHash
    have lastNonzero : chain.info.lastBlock.hash.isZero = false := by
      have isHash : last.hash = chain.info.lastBlock.hash := congrArg Cursor.hash same
      rw [← isHash]
      exact nonzero last member
    rw [canGrow, lastNonzero, if_neg Bool.false_ne_true, Bool.and_eq_true, beq_iff_eq] at allowed
    exact built.linked.grown wf follows allowed.2.symm

end Building.BuiltFrom

theorem System.keeps_builtFrom {system : System} {blocks} (event : Event)
    (nonzero : ∀ known ∈ blocks, known.hash.isZero = false) :
    system.Keeps (Building.BuiltFrom blocks) (Building.BuiltFrom (blocks ++ (event.offered system.options).toList)) event where
  kept _ built := built.mono (List.subset_append_left _ _) fun _ _ found => found
  restored _ built := built.mono (List.subset_append_left _ _) fun _ _ found => found
  started answers block isEvent _ _ fetched := by
    subst isEvent
    refine (Building.BuiltFrom.single block).mono ?_ fun _ _ found => found
    rw [Event.offered, fetched]
    exact List.subset_append_right _ _
  grown service state chain block isEvent _ piped built follows allowed := by
    subst isEvent
    exact built.grown piped.wf follows allowed nonzero
  taken service state chain block lastHash nextHash _ _ _ uploads built := by
    refine built.mono (List.Subset.refl _) fun number hash found => ?_
    rw [Building.remaining_hashAt, Option.ite_none_right_eq_some] at found
    exact found.2
  shrunk chain newHead built wf canonical := by
    refine built.mono (List.subset_append_left _ _) fun number hash found => ?_
    rw [Building.shrinkTo_hashAt wf canonical, Option.ite_none_right_eq_some] at found
    exact found.2

/-- What a run keeps: the chain is built from the blocks of the run. -/
structure System.Builds (options : IngestionServiceOptions) (past : List Input) (system : System) : Prop where
  ok : system.Ok
  sameOptions : system.options = options
  chains : (∀ block ∈ offeredBlocks options past, block.hash.isZero = false) →
    system.Chains (Building.BuiltFrom (offeredBlocks options past))

theorem System.Builds.step {options past} {system next : System} {input} (builds : system.Builds options past)
    (stepped : system.step input = some next) : next.Builds options (past ++ [input]) := by
  obtain ⟨_, -, rfl⟩ := System.step_inv builds.ok stepped
  refine ⟨builds.ok.step stepped, (finish_options _ _ _).trans builds.sameOptions, fun nonzero => ?_⟩
  have offered : offeredBlocks options (past ++ [input]) =
      offeredBlocks options past ++ (input.event.offered system.options).toList := by
    rw [offeredBlocks, List.flatMap_append, List.flatMap_singleton, builds.sameOptions]
    rfl
  rw [offered] at nonzero ⊢
  have before : ∀ block ∈ offeredBlocks options past, block.hash.isZero = false :=
    fun block member => nonzero block (List.mem_append_left _ member)
  exact (builds.chains before).step builds.ok (System.keeps_builtFrom input.event before) stepped

theorem System.Builds.of_run {options supportsPending inputs system}
    (reached : Runs.run System.step (.fresh options supportsPending) inputs = some system) :
    system.Builds options inputs := by
  have start : (System.fresh options supportsPending).Builds options [] :=
    ⟨fresh_ok options supportsPending, rfl, fun _ => .fresh _ options supportsPending⟩
  exact Runs.run_guarded_history (fun _ _ _ _ before _ stepped => before.step stepped) start
    (Runs.Meets.of_forall fun _ _ _ => trivial) reached

/-! ## The node has the blocks below a common block -/

namespace RemoteChain

def Has (remote : RemoteChain) (cursor : Cursor) : Prop := remote.hashes[cursor.number]? = some cursor.hash

/-- The hash of a block determines its parent, for the blocks of the node and the
    given ones. -/
def Commits (remote : RemoteChain) (blocks : List BlockInfo) : Prop :=
  ∀ block ∈ blocks, ∀ number other, remote.blockAt number = some other → other.cursor = block.cursor →
    other.parent = block.parent

variable {remote : RemoteChain} {blocks : List BlockInfo}

theorem Commits.of_blockAt (each : ∀ block ∈ blocks, ∀ other, remote.blockAt block.number = some other →
    other.cursor = block.cursor → other.parent = block.parent) : remote.Commits blocks := by
  intro block member number other found same
  obtain rfl : other.number = number := (blockAt_number found).1
  obtain sameNumber : other.number = block.number := congrArg Cursor.number same
  rw [sameNumber] at found
  exact each block member other found same

theorem Commits.parent (commits : remote.Commits blocks) {parent child} (link : ParentOf blocks parent child)
    (has : remote.Has child) : remote.Has parent := by
  obtain ⟨block, member, rfl, isParent⟩ := link
  rw [BlockInfo.parentCursor, Option.ite_none_left_eq_some] at isParent
  obtain ⟨positive, same⟩ := isParent
  cases same
  have hashAt : remote.hashes[block.number]? = some block.hash := has
  have blockAt : remote.blockAt block.number =
      some ⟨block.number, block.hash, remote.hashes.getD (block.number - 1) default⟩ := by
    rw [RemoteChain.blockAt, hashAt, Option.map_some, if_neg positive]
  have inside : block.number - 1 < remote.hashes.length :=
    Nat.lt_of_le_of_lt (Nat.sub_le _ _) (List.getElem?_eq_some_iff.mp hashAt).1
  have sameParent : remote.hashes.getD (block.number - 1) default = block.parent :=
    commits block member _ _ blockAt rfl
  rw [List.getD_eq_getElem?_getD, List.getElem?_eq_getElem inside, Option.getD_some] at sameParent
  rw [Has, List.getElem?_eq_getElem inside, sameParent]

/-- The blocks of the chain below one that the node has. -/
theorem Commits.below (commits : remote.Commits blocks) (linked : chain.Linked blocks) (wf : chain.WellFormed)
    {number hash} (found : chain.hashAt number = some hash) {above top}
    (foundTop : chain.hashAt (number + above) = some top) (has : remote.Has ⟨number + above, top⟩) :
    remote.Has ⟨number, hash⟩ := by
  induction above generalizing top with
  | zero =>
    cases found.symm.trans foundTop
    exact has
  | succ above ih =>
    have range := wf.hashAt_range foundTop
    have lower := (wf.hashAt_range found).1
    have inside : chain.info.firstBlock.number ≤ number + above ∧ number + above ≤ chain.info.lastBlock.number := by
      omega
    obtain ⟨_, foundMiddle⟩ := wf.hashAt_some inside.1 inside.2
    exact ih foundMiddle (commits.parent (linked _ _ _ foundMiddle foundTop) has)

end RemoteChain

/-! ## The recovery -/

/-- What a recovery does to the service when it found a common block. -/
structure Recovers (before after : IngestionService) (old : Cursor) (remote : RemoteChain) (state : IngestState) :
    Prop where
  canonical : before.canonicalHash state.lastIngested.number = some state.lastIngested.hash
  bound : state.lastIngested.number ≤ old.number
  common : remote.Has state.lastIngested
  highest : ∀ cursor, state.lastIngested.number < cursor.number → cursor.number ≤ old.number →
    before.canonicalHash cursor.number = some cursor.hash → ¬remote.Has cursor
  kept : ∀ number, after.canonicalHash number =
    if number ≤ state.lastIngested.number then before.canonicalHash number else none
  removed : ∀ cursor, before.canonicalHash cursor.number = some cursor.hash →
    state.lastIngested.number < cursor.number → after.reorgTarget cursor = some state.lastIngested
  others : ∀ cursor,
    ¬(before.canonicalHash cursor.number = some cursor.hash ∧ state.lastIngested.number < cursor.number) →
      after.reorgTarget cursor = before.reorgTarget cursor
  queue : after.taskQueue = []
  queued : state.queuedBlockNumber = state.lastIngested.number

theorem RemoteChain.has_of_blockAt {remote : RemoteChain} {number block} (found : remote.blockAt number = some block) :
    remote.Has block.cursor := by
  obtain ⟨_, hashAt, rfl⟩ := Option.map_eq_some_iff.mp found
  exact hashAt

/-- The node that answers with another block, or with none, does not have the block. -/
theorem IngestionService.RecoverPoll.Misses.not_has {poll : RecoverPoll} {cursor remote} (misses : poll.Misses cursor)
    (honest : poll.From remote cursor.number) : ¬remote.Has cursor := by
  intro has
  have blockAt : ∃ block, remote.blockAt cursor.number = some block ∧ block.cursor = cursor := by
    rw [RemoteChain.Has] at has
    exact ⟨_, by rw [RemoteChain.blockAt, has]; rfl, rfl⟩
  obtain ⟨_, isBlock, isCursor⟩ := blockAt
  rcases misses with ⟨_, rfl, different⟩ | ⟨_, rfl, notFound⟩
  · cases isBlock.symm.trans honest
    exact different isCursor
  · cases isBlock.symm.trans (honest notFound)

theorem Building.shrinkTo_targetOf (wf : chain.WellFormed) {newHead : Cursor}
    (canonical : chain.hashAt newHead.number = some newHead.hash) (cursor : Cursor) :
    (chain.shrinkTo newHead).targetOf cursor =
      if newHead.number < cursor.number ∧ chain.hashAt cursor.number = some cursor.hash then some newHead
      else chain.targetOf cursor := by
  rw [shrinkTo]
  by_cases top : newHead = chain.info.lastBlock
  · rw [if_pos top, if_neg]
    rintro ⟨above, found⟩
    have range := (wf.hashAt_range found).2
    rw [← top] at range
    exact absurd above (not_lt.mpr range)
  · rw [if_neg top]
    exact shrunk_targetOf newHead cursor (wf.hashAt_range canonical).1

/-- A recovery that found a common block, against a node that does not change. -/
theorem Chained.recovers {service} {state : RecoverState} (chained : Chained service state.lastIngested chain)
    {poll remote} (honest : ∀ number, (poll number).From remote number) {newHead}
    (found : findCommonBlock chain.snapshot poll state.lastIngested.number state.lastIngested.hash = .ok (some newHead)) :
    Recovers service (service.taskQueueClear.withChain (chain.shrinkTo newHead)) state.lastIngested remote
      ⟨state.finalized, state.existingHead, newHead, newHead.number, .default⟩ := by
  obtain ⟨upper, canonical, ⟨block, polled, rfl⟩, missed⟩ := findCommonBlock_some chained.wf chained.lastHash found
  have shrunk : Chained (service.taskQueueClear.withChain (chain.shrinkTo block.cursor)) block.cursor
      (chain.shrinkTo block.cursor) :=
    ⟨rfl, chained.wf.shrinkTo canonical, Building.shrinkTo_last _ _⟩
  have target : ∀ cursor, service.reorgTarget cursor = chain.targetOf cursor := by
    intro cursor
    rw [reorgTarget, chained.builder]
  constructor
  · exact (chained.canonicalHash_eq _).trans canonical
  · exact upper
  · have answered := honest block.cursor.number
    rw [polled] at answered
    exact RemoteChain.has_of_blockAt answered
  · intro cursor above below isCanonical
    rw [chained.canonicalHash_eq] at isCanonical
    exact (missed cursor.number above below cursor.hash isCanonical).not_has (honest cursor.number)
  · intro number
    rw [shrunk.canonicalHash_eq, Building.shrinkTo_hashAt chained.wf canonical, chained.canonicalHash_eq]
  · intro cursor isCanonical above
    rw [chained.canonicalHash_eq] at isCanonical
    exact (Building.shrinkTo_targetOf chained.wf canonical cursor).trans (if_pos ⟨above, isCanonical⟩)
  · intro cursor other
    rw [chained.canonicalHash_eq] at other
    rw [target]
    exact (Building.shrinkTo_targetOf chained.wf canonical cursor).trans (if_neg fun both => other both.symm)
  · rfl
  · rfl

/-- In every run: a recovery against a node that does not change ends at the highest
    block that both chains have, removes what is above it and nothing else, and if no
    block with a zero hash was ingested, what is left is the chain of the node.  A
    recovery that is cancelled changes nothing, and one that fails neither, as when a
    request for a block fails; unless it fails because the result cannot be published. -/
theorem System.recovery_exact {options : IngestionServiceOptions} {supportsPending : Bool} {inputs : List Input}
    {system : System} (reached : Runs.run System.step (.fresh options supportsPending) inputs = some system)
    {service : IngestionService} {state : RecoverState} (running : system.process = some (service, .recover state))
    {remote : RemoteChain} (commits : remote.Commits (offeredBlocks options inputs)) {poll : Nat → RecoverPoll}
    (honest : ∀ number, (poll number).From remote number) (snapshot recent : Answer Unit) :
    let call := recoverCall system.world service state poll snapshot recent
    (∀ state', call.1 = .ok (.ingest state') →
      Recovers service call.2 state.lastIngested remote state' ∧
      ((∀ block ∈ offeredBlocks options inputs, block.hash.isZero = false) →
        ∀ number hash, call.2.canonicalHash number = some hash → remote.Has ⟨number, hash⟩)) ∧
    (∀ state', call.1 = .ok (.recover state') → state' = state ∧ call.2 = service) ∧
    (∀ fault, call.1 = .error fault → call.2 = service ∨ publishAnswer snapshot recent = .error fault) ∧
    ∀ report, call.1 = .error (.error report) → report.context = .rpcRequest → call.2 = service := by
  intro call
  have builds := System.Builds.of_run reached
  obtain ⟨chain, chained⟩ := builds.ok.process _ running
  rcases recoverCall_cases system.world snapshot recent chained.builder chained.wf chained.last with
    ⟨fault, failed⟩ | cancelled | ⟨newHead, found, done⟩
  · have isCall : call = (.error fault, service) := failed
    rw [isCall]
    exact ⟨nofun, nofun, fun _ _ => .inl rfl, fun _ _ _ => rfl⟩
  · have isCall : call = (.ok (.recover state), service) := cancelled
    rw [isCall]
    exact ⟨nofun, fun state' same => by cases same; exact ⟨rfl, rfl⟩, nofun, nofun⟩
  have isCall : call = _ := done
  rw [isCall]
  cases published : publishAnswer snapshot recent with
  | error fault =>
    refine ⟨nofun, nofun, fun other same => .inr ?_, fun report same context => ?_⟩
    · exact congrArg Except.error (Except.error.inj same)
    · cases same
      exact absurd context (publishAnswer_context published)
  | ok =>
    refine ⟨fun state' returned => ?_, nofun, nofun, nofun⟩
    cases returned
    have recovers := chained.recovers honest found
    refine ⟨recovers, fun nonzero number hash isCanonical => ?_⟩
    have built := (builds.chains nonzero).builder _ running chain chained.builder
    rw [recovers.kept, Option.ite_none_right_eq_some, chained.canonicalHash_eq] at isCanonical
    obtain ⟨below, canonical⟩ := isCanonical
    have top := recovers.canonical
    rw [chained.canonicalHash_eq] at top
    obtain ⟨above, isTop⟩ := Nat.exists_eq_add_of_le below
    have has := recovers.common
    rw [isTop] at top
    refine commits.below built.linked chained.wf canonical top ?_
    rw [← isTop]
    exact has

open StaleHead

theorem replacedRemote_commits : replacedRemote.Commits (offeredBlocks .default shrinking) := by
  refine .of_blockAt fun block member other found same => ?_
  have offered : block = blockZero ∨ block = blockOne ∨ block = blockTwo := by
    simpa [offeredBlocks, shrinking, Event.offered, Input.startAt, Input.newHead, Input.ingested, Except.toOption]
      using member
  rcases offered with rfl | rfl | rfl
  · exact congrArg BlockInfo.parent (Option.some.inj found).symm
  · exact congrArg BlockInfo.parent (Option.some.inj found).symm
  · cases found
    exact absurd (congrArg Cursor.hash same) (by decide)

theorem System.recovery_exact_replaced :
    ∃ system service state state', Runs.run System.step (.fresh .default false) shrinking = some system ∧
      system.process = some (service, .recover state) ∧
      (recoverCall system.world service state replacedRemote.poll (.ok ()) (.ok ())).1 = .ok (.ingest state') ∧
      state'.lastIngested = blockOne.cursor ∧
      Recovers service (recoverCall system.world service state replacedRemote.poll (.ok ()) (.ok ())).2
        state.lastIngested replacedRemote state' := by
  have reached : Runs.run System.step (.fresh .default false) shrinking = some _ := rfl
  refine ⟨_, _, _, _, reached, rfl, rfl, rfl, ?_⟩
  exact ((System.recovery_exact reached rfl replacedRemote_commits replacedRemote.poll_from (.ok ()) (.ok ())).1 _ rfl).1

namespace ReplacedGenesis

def block : BlockInfo := ⟨1, ⟨[2]⟩, ⟨[1]⟩⟩

/-- Block 0 has a zero hash when it is ingested, and another hash when block 1 is. -/
def events : List Input :=
  [.startAt ⟨0, ⟨[0]⟩, ⟨[]⟩⟩, .newHead ⟨2, ⟨[3]⟩⟩, .ingested block, .newHead block.cursor]

def remote : RemoteChain := ⟨[⟨[1]⟩, ⟨[2]⟩], ⟨[]⟩, List.cons_ne_nil _ _⟩

theorem remote_commits : remote.Commits (offeredBlocks .default events) := by
  refine .of_blockAt fun offered member other found same => ?_
  have cases : offered = ⟨0, ⟨[0]⟩, ⟨[]⟩⟩ ∨ offered = block := by
    simpa [offeredBlocks, events, Event.offered, Input.startAt, Input.newHead, Input.ingested, Except.toOption]
      using member
  rcases cases with rfl | rfl
  · cases found
    exact absurd (congrArg Cursor.hash same) (by decide)
  · exact congrArg BlockInfo.parent (Option.some.inj found).symm

end ReplacedGenesis

/-- The recovery ends at block 1, which the node has, and keeps a block 0 that the node
    does not have. -/
theorem System.recovery_keeps_foreign :
    ∃ system service state state' hash,
      Runs.run System.step (.fresh .default false) ReplacedGenesis.events = some system ∧
      system.process = some (service, .recover state) ∧
      ReplacedGenesis.remote.Commits (offeredBlocks .default ReplacedGenesis.events) ∧
      (recoverCall system.world service state ReplacedGenesis.remote.poll (.ok ()) (.ok ())).1 = .ok (.ingest state') ∧
      (recoverCall system.world service state ReplacedGenesis.remote.poll (.ok ()) (.ok ())).2.canonicalHash 0 =
        some hash ∧
      ¬ReplacedGenesis.remote.Has ⟨0, hash⟩ := by
  refine ⟨_, _, _, _, _, rfl, rfl, ReplacedGenesis.remote_commits, rfl, rfl, ?_⟩
  intro has
  exact absurd (Option.some.inj has) (by decide)

end Starkstream
