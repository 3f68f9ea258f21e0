import Starkstream.Ingestion.CommonBlock

/-! # Internal errors

A tick reports `IngestionError::Model` when the builder and the state do not agree, or
when a recovery runs past the first block of the builder.  The first never happens; the
second does not happen while the node has the first block of the builder.  A node that
never replaces the blocks up to the first one keeps it there, but a new block becomes the
first one whenever a segment is taken off the builder, and by then the node may have
replaced it.
-/

namespace Starkstream

open CanonicalChainBuilder
open IngestionService

/-- A panic, or `IngestionError::Model`. -/
def Fault.isInternal : Fault IngestionError → Bool
  | .panic => true
  | .error report => report.context == .model

/-- The tick ends with a panic or with `IngestionError::Model`. -/
def Tick.isInternal {α : Type} (tick : Tick α) : Bool :=
  match tick.result with
  | .error fault => fault.isInternal
  | .ok _ => false

/-- The events that are ticks of a running service. -/
def Event.isTick : Event → Bool
  | .start _ | .stop => false
  | _ => true

/-- The number of the first block of the builder or, while no process runs, of the chain
    that the next one takes up. -/
def System.firstNumber (system : System) : Option Nat :=
  match system.process with
  | some (service, _) =>
    match service.chainBuilder with
    | .building chain => some chain.info.firstBlock.number
    | .empty => none
  | none => system.world.etcd.recent.map (·.firstBlock)

/-- The ingestion of the chain of a node. -/
structure Following where
  remote : RemoteChain
  system : System

inductive FollowingInput where
  | remote (chain : RemoteChain)
  | service (input : Input)

namespace Following

def fresh (remote : RemoteChain) (options : IngestionServiceOptions) (supportsPending : Bool) : Following :=
  ⟨remote, .fresh options supportsPending⟩

def step (following : Following) : FollowingInput → Option Following
  | .remote chain => some { following with remote := chain }
  | .service input => (following.system.step input).map fun system => { following with system }

/-- The finalized cursor does not go backwards, and requests for the first block of the
    builder are answered from the chain of the node.  Of the other requests nothing is
    assumed, since the node may change in between. -/
def Answers (following : Following) : Event → Prop
  | .refreshFinalized answer => ∀ service state finalized,
      following.system.process = some (service, .ingest state) → answer = .ok finalized →
        state.finalized.number ≤ finalized.number
  | .recover poll => ∀ first, following.system.firstNumber = some first → (poll first).From following.remote first
  | _ => True

/-- The node keeps the blocks up to the first block of the builder. -/
def Assumes (following : Following) : FollowingInput → Prop
  | .remote chain => ∀ first, following.system.firstNumber = some first → ∀ number ≤ first,
      chain.hashes[number]? = following.remote.hashes[number]?
  | .service input => following.Answers input.event

/-- The node has the block that becomes the first one of the builder: the starting block of
    a service that finds no chain, and the block after a segment that is taken. -/
def BecomesFirst (following : Following) : Event → Prop
  | .start answers => following.system.firstNumber = none → ∀ block,
      answers.ingestBlock (startingBlock following.system.options) = .ok block → following.remote.Has block.cursor
  | .taskResult (.finished (.ok (.main block))) => ∀ service state chain,
      following.system.process = some (service, .ingest state) → service.chainBuilder = .building chain →
        following.system.options.chainSegmentSize + following.system.options.chainSegmentUploadOffsetSize ≤
          (chain.grown block).canonical.length →
        ∀ hash, (chain.grown block).canonical[following.system.options.chainSegmentSize]? = some hash →
          following.remote.Has ⟨chain.info.firstBlock.number + following.system.options.chainSegmentSize, hash⟩
  | _ => True

def FirstOnRemote (following : Following) : FollowingInput → Prop
  | .remote _ => True
  | .service input => following.BecomesFirst input.event

end Following

/-! ## The published chain does not begin after the builder -/

/-- The published chain does not begin after the chain of the builder. -/
def System.Ordered (system : System) : Prop :=
  ∀ running chain pointer, system.process = some running → running.1.chainBuilder = .building chain →
    system.world.etcd.recent = some pointer → pointer.firstBlock ≤ chain.info.firstBlock.number

theorem World.applyAll_plain_recent {options event writes} (plain : ∀ write ∈ writes, write.Plain options event)
    (world : World) : (world.applyAll writes).etcd.recent = world.etcd.recent := by
  induction writes generalizing world with
  | nil => rfl
  | cons first rest ih =>
    have unchanged : (world.apply first).etcd.recent = world.etcd.recent := by
      have isPlain := plain first List.mem_cons_self
      cases first with
      | putFinalized | putStartingBlock | putPending => rfl
      | _ => exact isPlain.elim
    rw [← unchanged]
    exact ih (fun write member => plain write (List.mem_cons_of_mem _ member)) _

variable {chain : Building}

theorem ChainEffect.ordered {system event tick} (effect : ChainEffect system event tick) (ok : system.Ok)
    (ordered : system.Ordered) {running} (returned : tick.result = .ok running)
    (isChain : running.1.chainBuilder = .building chain) {pointer}
    (published : (system.world.applyAll tick.writes).etcd.recent = some pointer) :
    pointer.firstBlock ≤ chain.info.firstBlock.number := by
  cases effect with
  | kept plain same =>
    obtain ⟨earlier, wasRunning, builder⟩ := same running returned
    rw [World.applyAll_plain_recent plain] at published
    exact ordered earlier chain pointer wasRunning (builder.symm.trans isChain) published
  | started idle answered nothing fetched first builder | uploaded wasRunning piped next allowed uploads builder
  | recovered wasRunning chained canonical last builder =>
    cases returned
    cases builder.symm.trans isChain
    cases published
    exact le_rfl
  | restarted idle answered isPublished stored wf builder =>
    cases returned
    cases builder.symm.trans isChain
    cases isPublished.symm.trans published
    obtain ⟨other, -, otherStored, first, -⟩ := ok.store.recent _ isPublished
    have snapshots := Option.some.inj (otherStored.symm.trans stored)
    have infos : other.info = _ := congrArg CanonicalChainSegment.info snapshots
    rw [first, infos]
    exact le_rfl
  | appended wasRunning piped next allowed isPublished builder =>
    cases returned
    cases builder.symm.trans isChain
    rcases isPublished with rfl | rfl
    · exact (ordered _ _ pointer wasRunning piped.builder published :)
    · cases published
      exact le_rfl

theorem System.Ordered.step {system next : System} (ordered : system.Ordered) (ok : system.Ok) {input}
    (stepped : system.step input = some next) : next.Ordered := by
  obtain ⟨_, transition, rfl⟩ := System.step_inv ok stepped
  intro running chain pointer alive isChain published
  obtain ⟨whole, returned⟩ := System.finish_process alive
  rw [System.finish_applied, whole] at published
  exact transition.chainEffect.ordered ok ordered returned isChain published

/-! ## The node keeps the first block -/

namespace Following

variable {following next : Following}

/-- What a run keeps: the node has the first blocks of the builder and of the published
    chain. -/
structure Anchored (options : IngestionServiceOptions) (following : Following) : Prop where
  sameOptions : following.system.options = options
  ok : following.system.Ok
  ordered : following.system.Ordered
  chains : following.system.Chains fun chain => following.remote.Has chain.info.firstBlock

theorem keeps_first {event} (kept : following.BecomesFirst event) :
    following.system.Keeps (fun chain => following.remote.Has chain.info.firstBlock)
      (fun chain => following.remote.Has chain.info.firstBlock) event where
  kept _ has := has
  restored _ has := has
  started answers block isEvent idle nothing fetched := by
    subst isEvent
    exact kept (by rw [System.firstNumber, idle, nothing]; rfl) block fetched
  grown _ _ _ _ _ _ _ has _ _ := has
  taken service state chain block lastHash nextHash isEvent running piped uploads _ := by
    subst isEvent
    exact kept service state chain running piped.builder uploads.enough nextHash uploads.nextAt
  shrunk chain newHead has _ _ := by
    rw [Building.shrinkTo_first]
    exact has

theorem fresh_anchored (remote : RemoteChain) (options : IngestionServiceOptions) (supportsPending : Bool) :
    Anchored options (fresh remote options supportsPending) :=
  ⟨rfl, System.fresh_ok options supportsPending, nofun, .fresh _ options supportsPending⟩

namespace Anchored

variable {options : IngestionServiceOptions}

variable (anchored : Anchored options following)
include anchored

theorem service {input : Input} {system} (kept : following.BecomesFirst input.event)
    (stepped : following.system.step input = some system) : Anchored options { following with system } where
  sameOptions := by
    obtain ⟨-, -, rfl⟩ := System.step_inv anchored.ok stepped
    exact (System.finish_options _ _ _).trans anchored.sameOptions
  ok := anchored.ok.step stepped
  ordered := anchored.ordered.step anchored.ok stepped
  chains := anchored.chains.step anchored.ok (keeps_first kept) stepped

theorem builder_first {running} (alive : following.system.process = some running) :
    ∃ chain, running.1.chainBuilder = .building chain ∧ chain.WellFormed ∧
      following.system.firstNumber = some chain.info.firstBlock.number := by
  have first : ∀ chain, running.1.chainBuilder = .building chain →
      following.system.firstNumber = some chain.info.firstBlock.number := by
    intro chain isChain
    rw [System.firstNumber, alive]
    simp only [isChain]
  have processOk := anchored.ok.process running alive
  obtain ⟨_, _ | _⟩ := running
  · obtain ⟨chain, piped⟩ := processOk
    exact ⟨chain, piped.builder, piped.wf, first chain piped.builder⟩
  · obtain ⟨chain, chained⟩ := processOk
    exact ⟨chain, chained.builder, chained.wf, first chain chained.builder⟩

theorem published_le {pointer} (published : following.system.world.etcd.recent = some pointer) :
    ∃ first, following.system.firstNumber = some first ∧ pointer.firstBlock ≤ first := by
  cases running : following.system.process with
  | none => exact ⟨pointer.firstBlock, by rw [System.firstNumber, running, published]; rfl, le_rfl⟩
  | some current =>
    obtain ⟨chain, isChain, -, first⟩ := anchored.builder_first running
    exact ⟨_, first, anchored.ordered current chain pointer running isChain published⟩

theorem remote {chain} (stable : following.Assumes (.remote chain)) :
    Anchored options { following with remote := chain } := by
  have moves : ∀ cursor : Cursor, following.remote.Has cursor → ∀ first, following.system.firstNumber = some first →
      cursor.number ≤ first → chain.Has cursor := by
    intro cursor has first isFirst below
    exact (stable first isFirst cursor.number below).trans has
  refine ⟨anchored.sameOptions, anchored.ok, anchored.ordered, ?_, anchored.chains.published.older, ?_⟩
  · intro running alive current isChain
    obtain ⟨_, isOther, -, first⟩ := anchored.builder_first alive
    cases isChain.symm.trans isOther
    exact moves _ (anchored.chains.builder running alive current isChain) _ first le_rfl
  · intro pointer published
    obtain ⟨current, wf, stored, has⟩ := anchored.chains.published.recent pointer published
    obtain ⟨other, -, otherStored, first, -⟩ := anchored.ok.store.recent pointer published
    have infos : other.info = current.info :=
      congrArg CanonicalChainSegment.info (Option.some.inj (otherStored.symm.trans stored))
    obtain ⟨limit, isLimit, below⟩ := anchored.published_le published
    refine ⟨current, wf, stored, moves _ has limit isLimit ?_⟩
    rw [← infos, ← first]
    exact below

theorem step {input} (guard : following.Assumes input ∧ following.FirstOnRemote input)
    (stepped : following.step input = some next) : Anchored options next := by
  cases input with
  | remote =>
    cases stepped
    exact anchored.remote guard.1
  | service =>
    obtain ⟨_, moved, rfl⟩ := Option.map_eq_some_iff.mp stepped
    exact anchored.service guard.2 moved

end Anchored

end Following

/-! ## What a tick can fail with -/

namespace IngestionService

variable {fault : Fault IngestionError}

theorem checkCandidate_fault {poll candidate} (failed : checkCandidate poll candidate = .error fault) :
    fault.isInternal = false := by
  unfold checkCandidate at failed
  split at failed
  · cases failed
  · cases failed
  · split_ifs at failed
    cases failed
    rfl

theorem findCommonBlock_fault (wf : chain.WellFormed) {remote : RemoteChain} (has : remote.Has chain.info.firstBlock)
    {poll} (honest : (poll chain.info.firstBlock.number).From remote chain.info.firstBlock.number) {number hash}
    (canonical : chain.hashAt number = some hash)
    (failed : findCommonBlock chain.snapshot poll number hash = .error fault) : fault.isInternal = false := by
  -- at the first block of the chain the candidate is the block that the node has
  have stops : ∀ hash, chain.hashAt chain.info.firstBlock.number = some hash →
      checkCandidate (poll chain.info.firstBlock.number) ⟨chain.info.firstBlock.number, hash⟩ ≠ .ok .reorged := by
    intro hash canonical reorged
    cases wf.firstHash.symm.trans canonical
    exact (checkCandidate_reorged reorged).not_has honest has
  induction number generalizing hash with
  | zero =>
    have isFirst : chain.info.firstBlock.number = 0 := Nat.le_zero.mp (wf.hashAt_range canonical).1
    rw [isFirst] at stops
    cases checked : checkCandidate (poll 0) ⟨0, hash⟩ with
    | error =>
      simp only [findCommonBlock, checked, bind, Except.bind, Except.error.injEq] at failed
      exact failed ▸ checkCandidate_fault checked
    | ok check =>
      cases check with
      | reorged => exact absurd checked (stops hash canonical)
      | _ => simp [findCommonBlock, checked, bind, Except.bind, pure, Except.pure] at failed
  | succ below ih =>
    cases checked : checkCandidate (poll (below + 1)) ⟨below + 1, hash⟩ with
    | error =>
      simp only [findCommonBlock, checked, bind, Except.bind, Except.error.injEq] at failed
      exact failed ▸ checkCandidate_fault checked
    | ok check =>
      cases check with
      | reorged =>
        have above : chain.info.firstBlock.number ≠ below + 1 := by
          intro isFirst
          rw [isFirst] at stops
          exact stops hash canonical checked
        have range := wf.hashAt_range canonical
        obtain ⟨_, parentAt⟩ := wf.hashAt_some (show chain.info.firstBlock.number ≤ below by omega)
          (by omega)
        simp only [findCommonBlock, checked, Building.snapshot_canonicalAt wf parentAt, Outcome.changeContext]
          at failed
        exact ih parentAt failed
      | _ => simp [findCommonBlock, checked, bind, Except.bind, pure, Except.pure] at failed

theorem tickRefreshFinalized_fault {state : IngestState} {answer}
    (forward : ∀ finalized, answer = .ok finalized → state.finalized.number ≤ finalized.number)
    (failed : (tickRefreshFinalized state answer).result = .error fault) : fault.isInternal = false := by
  rcases tickRefreshFinalized_cases state answer with
    ⟨_, reason, done⟩ | ⟨-, done⟩ | ⟨finalized, -, -, done⟩
  · rw [done] at failed
    cases failed
    rcases reason with ⟨_, rfl⟩ | ⟨finalized, answered, behind⟩
    · rfl
    · exact absurd behind (not_lt.mpr (forward finalized answered))
  · rw [done] at failed
    cases failed
  · rw [done] at failed
    cases failed

theorem tickWithTaskResult_fault (world : World) {service : IngestionService} {state}
    (builder : service.chainBuilder = .building chain) (wf : chain.WellFormed)
    (size : 1 ≤ service.options.chainSegmentSize) (offset : 1 ≤ service.options.chainSegmentUploadOffsetSize) {result}
    (next : ∀ block, result = .finished (.ok (.main block)) → block.number = chain.info.lastBlock.number + 1)
    (failed : (tickWithTaskResult world service state (some result)).result = .error fault) :
    fault.isInternal = false := by
  cases result with
  | joinError =>
    cases failed
    rfl
  | finished answer =>
  cases answer with
  | error report =>
    simp only [tickWithTaskResult] at failed
    split_ifs at failed
    cases failed
    rfl
  | ok finished =>
  cases finished with
  | pending block => cases block <;> cases failed
  | main block =>
    rw [tickWithTaskResult] at failed
    rcases ingestBlock_cases world service state block builder (wf.grown (next block rfl)) with
      ⟨-, done⟩ | ⟨_, _, done⟩ | ⟨-, -, done⟩ | ⟨_, _, -, -, done⟩
    · rw [done] at failed
      cases failed
    · omega
    · rw [done] at failed
      cases failed
    · rw [done] at failed
      cases failed

end IngestionService

theorem Pipelined.accepts_main {service state} (piped : Pipelined service state chain) {task rest}
    (queue : service.taskQueue = task :: rest) {block} (accepted : task.accepts (.finished (.ok (.main block))) = true) :
    block.number = chain.info.lastBlock.number + 1 := by
  cases task with
  | pending => simp [QueuedTask.accepts] at accepted
  | main number =>
    have same : block.number = number := by simpa [QueuedTask.accepts] using accepted
    rw [same, piped.last]
    exact (piped.first_main queue).1

theorem Following.Anchored.tick_fault {options following} (anchored : Anchored options following)
    (size : 1 ≤ options.chainSegmentSize) (offset : 1 ≤ options.chainSegmentUploadOffsetSize) {event : Event}
    (isTick : event.isTick = true) (answers : following.Answers event) {tick}
    (planned : following.system.plan event = some tick) {fault} (failed : tick.result = .error fault) :
    fault.isInternal = false := by
  cases running : following.system.process with
  | none =>
    cases event with
    | start | stop => cases isTick
    | _ => simp [System.plan, running] at planned
  | some current =>
  have processOk := anchored.ok.process current running
  have sameOptions := (anchored.ok.options current running).trans anchored.sameOptions
  obtain ⟨service, state | state⟩ := current
  · obtain ⟨chain, piped⟩ := processOk
    cases event with
    | start | stop => cases isTick
    | recover poll => simp [System.plan, running] at planned
    | refreshFinalized answer =>
      simp only [System.plan, running, Option.some.injEq] at planned
      subst planned
      exact tickRefreshFinalized_fault (fun finalized => answers service state finalized running)
        (Planned.error_of_bind_pure failed)
    | refreshHead head =>
      simp only [System.plan, running, Option.some.injEq] at planned
      subst planned
      cases failed
    | refreshPending =>
      simp only [System.plan, running, Option.ite_none_right_eq_some, Option.some.injEq] at planned
      obtain ⟨-, rfl⟩ := planned
      cases failed
    | taskResult result =>
      cases queue : service.taskQueue with
      | nil => simp [System.plan, running, queue] at planned
      | cons task rest =>
        simp only [System.plan, running, queue, Option.ite_none_right_eq_some, Option.some.injEq] at planned
        obtain ⟨accepted, rfl⟩ := planned
        have sizes : service.options = options := sameOptions
        rw [← sizes] at size offset
        have builder : ({ service with taskQueue := rest } : IngestionService).chainBuilder = .building chain :=
          piped.builder
        refine tickWithTaskResult_fault following.system.world builder piped.wf size offset ?_ failed
        intro block isMain
        subst isMain
        exact piped.accepts_main queue accepted
  · obtain ⟨chain, chained⟩ := processOk
    cases event with
    | start | stop => cases isTick
    | recover poll =>
      simp only [System.plan, running, Option.some.injEq] at planned
      subst planned
      rcases tickRecover_cases following.system.world service state poll chained.builder chained.wf chained.last with
        ⟨_, unfound, done⟩ | ⟨-, done⟩ | ⟨_, -, done⟩
      · rw [done] at failed
        cases failed
        obtain ⟨same, isSame, -, first⟩ := anchored.builder_first running
        cases isSame.symm.trans chained.builder
        exact findCommonBlock_fault chained.wf (anchored.chains.builder _ running _ chained.builder)
          (answers _ first) chained.lastHash unfound
      · rw [done] at failed
        cases failed
      · rw [done] at failed
        cases failed
    | _ => simp [System.plan, running] at planned

/-- No tick reports an internal error or panics, in every run in which the node has each
    block that becomes the first one of the builder. -/
theorem Following.no_internal_error {remote : RemoteChain} {options : IngestionServiceOptions} {supportsPending : Bool}
    (size : 1 ≤ options.chainSegmentSize) (offset : 1 ≤ options.chainSegmentUploadOffsetSize)
    {inputs : List FollowingInput} {following : Following}
    (reached : Runs.run step (fresh remote options supportsPending) inputs = some following)
    (meets : Runs.Meets step (fun following input => following.Assumes input ∧ following.FirstOnRemote input)
      (fresh remote options supportsPending) inputs)
    {event : Event} (isTick : event.isTick = true) (answers : following.Answers event)
    {tick : Tick (IngestionService × IngestionState)} (planned : following.system.plan event = some tick) :
    tick.isInternal = false := by
  have anchored : Anchored options following :=
    Runs.run_guarded (fun _ _ _ before guard stepped => before.step guard stepped)
      (fresh_anchored remote options supportsPending) meets reached
  rw [Tick.isInternal]
  cases ended : tick.result with
  | ok next => rfl
  | error fault => exact anchored.tick_fault size offset isTick answers planned ended

namespace LateReorg

/-- A segment of one block is taken once two blocks follow it. -/
def options : IngestionServiceOptions := ⟨10, 1, 2, none⟩

def blockZero : BlockInfo := ⟨0, ⟨[1]⟩, ⟨[]⟩⟩

def blockOne : BlockInfo := ⟨1, ⟨[2]⟩, ⟨[1]⟩⟩

def blockTwo : BlockInfo := ⟨2, ⟨[3]⟩, ⟨[2]⟩⟩

/-- The node when blocks 1, 2 and 3 are requested. -/
def before : RemoteChain := ⟨[⟨[1]⟩, ⟨[2]⟩, ⟨[3]⟩, ⟨[4]⟩], ⟨[]⟩, List.cons_ne_nil _ _⟩

def after : RemoteChain := ⟨[⟨[1]⟩, ⟨[9]⟩], ⟨[]⟩, List.cons_ne_nil _ _⟩

/-- Block 1 is replaced after it was ingested, and block 2 was fetched before that. -/
def replaced : List FollowingInput :=
  [.service (.startAt blockZero), .service (.newHead ⟨3, ⟨[4]⟩⟩), .service (.ingested blockOne), .remote after,
    .service (.ingested blockTwo), .service (.newHead after.head)]

/-- Block 1 is replaced before block 2 is fetched. -/
def noticed : List FollowingInput :=
  [.service (.startAt blockZero), .service (.newHead ⟨3, ⟨[4]⟩⟩), .service (.ingested blockOne), .remote after,
    .service ⟨.taskResult (.finished (.error ⟨.blockNotFound, []⟩)), none⟩]

end LateReorg

open LateReorg

theorem Following.no_internal_error_noticed :
    ∃ following tick, Runs.run step (fresh LateReorg.before LateReorg.options false) noticed = some following ∧
      following.system.plan (.recover following.remote.poll) = some tick ∧ tick.isInternal = false := by
  obtain ⟨following, tick, reached, planned⟩ : ∃ following tick,
      Runs.run step (fresh LateReorg.before LateReorg.options false) noticed = some following ∧
      following.system.plan (.recover following.remote.poll) = some tick := ⟨_, _, rfl, rfl⟩
  refine ⟨following, tick, reached, planned, ?_⟩
  have answers : following.Answers (.recover following.remote.poll) := fun first _ => RemoteChain.poll_from _ first
  refine no_internal_error (by decide) (by decide) reached ?_ rfl answers planned
  refine .cons ⟨trivial, ?_⟩ rfl (.cons ⟨trivial, trivial⟩ rfl (.cons ⟨trivial, ?_⟩ rfl (.cons ⟨?_, trivial⟩ rfl
    (.cons ⟨trivial, trivial⟩ rfl trivial))))
  · intro _ block fetched
    cases fetched
    rfl
  · intro service state chain running builder enough
    cases running
    cases builder
    exact absurd enough (by decide)
  · intro first isFirst number below
    cases isFirst
    obtain rfl := Nat.le_zero.mp below
    rfl

/-- The segment of block 0 is taken with the replaced block 1 on top of it, and the
    recovery runs past block 1. -/
theorem Following.internal_error_replaced :
    ∃ following tick, Runs.run step (fresh LateReorg.before LateReorg.options false) LateReorg.replaced =
        some following ∧
      Runs.Meets step Assumes (fresh LateReorg.before LateReorg.options false) LateReorg.replaced ∧
      following.Answers (.recover following.remote.poll) ∧
      following.system.plan (.recover following.remote.poll) = some tick ∧ tick.isInternal = true := by
  refine ⟨_, _, rfl, ?_, fun first _ => RemoteChain.poll_from _ first, rfl, rfl⟩
  refine .cons trivial rfl (.cons trivial rfl (.cons trivial rfl (.cons ?_ rfl
    (.cons trivial rfl (.cons trivial rfl trivial)))))
  intro first isFirst number below
  cases isFirst
  obtain rfl := Nat.le_zero.mp below
  rfl

end Starkstream
