import Starkstream.Chain.Restore
import Starkstream.Ingestion.Ticks

/-! # Runs of the ingestion service

A run interleaves starts of the process, its ticks and its deaths.  Every choice
of the outside world is in the input: which event comes next, what the node
answers, and after how many writes the process dies, if it dies in the middle of
the event.  The world survives the process.

`Transition` says once what an event can do in a state that meets the
invariant; everything proved about runs is a case analysis over it.
-/

namespace Starkstream

open CanonicalChainBuilder
open IngestionService

/-- What a task may return: a block task returns the block it was asked for. -/
def QueuedTask.accepts : QueuedTask → IngestionJobJoinResult → Bool
  | .main blockNumber, .finished (.ok (.main block)) => block.number = blockNumber
  | .pending _ _, .finished (.ok (.main _)) => false
  | .main _, .finished (.ok (.pending _)) => false
  | .pending _ generation, .finished (.ok (.pending (some block))) => block.generation = generation
  | _, _ => true

/-- The first block is the one that was asked for. -/
def IngestionService.InitializeAnswers.accepts (answers : InitializeAnswers)
    (options : IngestionServiceOptions) : Bool :=
  match answers.ingestBlock (startingBlock options) with
  | .ok block => block.number = startingBlock options
  | .error _ => true

inductive Event where
  | start (answers : InitializeAnswers)
  | refreshFinalized (answer : Answer Cursor)
  /-- A head from the stream or from the backup refresher. -/
  | refreshHead (head : Cursor)
  | refreshPending
  | taskResult (result : IngestionJobJoinResult)
  | recover (poll : Nat → RecoverPoll)
  /-- The process exits outside of these: the lock could not be kept alive, the
      head could not be refreshed, or it was killed. -/
  | stop

structure Input where
  event : Event
  /-- The process dies after this many writes of the event. -/
  crash : Option Nat

namespace Input

/-- A start while the node has the given block only. -/
def startAt (block : BlockInfo) : Input :=
  { event := .start
      { head := .ok block.cursor
        finalized := .ok block.cursor
        blockInfo := fun _ => .ok block
        ingestBlock := fun _ => .ok block
        deletesLegacyRecent := true
        deletesLegacyIngested := true }
    crash := none }

def newHead (head : Cursor) : Input := ⟨.refreshHead head, none⟩

/-- A block task that ended with the given block. -/
def ingested (block : BlockInfo) : Input := ⟨.taskResult (.finished (.ok (.main block))), none⟩

end Input

structure System where
  options : IngestionServiceOptions
  supportsPending : Bool
  world : World
  process : Option (IngestionService × IngestionState)

namespace System

def fresh (options : IngestionServiceOptions) (supportsPending : Bool) : System :=
  { options, supportsPending, world := .fresh, process := none }

/-- What the process does on an event; `none` when the event is not possible. -/
def plan (system : System) : Event → Option (Tick (IngestionService × IngestionState))
  | .start answers =>
    match system.process with
    | none =>
      if answers.accepts system.options then
        some (initializeService system.world (.new system.options system.supportsPending) answers)
      else none
    | some _ => none
  | .refreshFinalized answer =>
    match system.process with
    | some (service, .ingest state) =>
      some (tickRefreshFinalized state answer >>= fun next => pure (service, next))
    | _ => none
  | .refreshHead head =>
    match system.process with
    | some (service, .ingest state) => some (pure (tickRefreshHead service state head))
    | _ => none
  | .refreshPending =>
    match system.process with
    | some (service, .ingest state) =>
      if state.head = state.lastIngested && service.supportsPending then
        some (pure (tickRefreshPending service state))
      else none
    | _ => none
  | .taskResult result =>
    match system.process with
    | some (service, .ingest state) =>
      match service.taskQueue with
      | task :: rest =>
        if task.accepts result then
          some (tickWithTaskResult system.world { service with taskQueue := rest } state (some result))
        else none
      | [] => none
    | _ => none
  | .recover poll =>
    match system.process with
    | some (service, .recover state) => some (tickRecover system.world service state poll)
    | _ => none
  | .stop =>
    match system.process with
    | some _ => some (.lift (Outcome.fail .lockKeepAlive []))
    | none => none

end System

def applied (crash : Option Nat) (writes : List Write) : List Write :=
  match crash with
  | some count => writes.take count
  | none => writes

namespace System

/-- Carry an event out: all of its writes, or those before the crash. -/
def finish (system : System) (crash : Option Nat) (tick : Tick (IngestionService × IngestionState)) : System :=
  match crash with
  | some count => { system with world := system.world.applyAll (tick.writes.take count), process := none }
  | none => { system with world := system.world.applyAll tick.writes, process := tick.result.toOption }

def step (system : System) (input : Input) : Option System :=
  (system.plan input.event).map (system.finish input.crash)

end System

theorem System.finish_applied (system : System) (crash : Option Nat)
    (tick : Tick (IngestionService × IngestionState)) :
    (system.finish crash tick).world = system.world.applyAll (applied crash tick.writes) := by
  cases crash <;> rfl

def mainNumbers (queue : List QueuedTask) : List Nat :=
  queue.filterMap fun
    | .main blockNumber => some blockNumber
    | .pending _ _ => none

/-- The service has a well formed chain that ends at `last`. -/
structure Chained (service : IngestionService) (last : Cursor) (chain : Building) : Prop where
  builder : service.chainBuilder = .building chain
  wf : chain.WellFormed
  last : chain.info.lastBlock = last

/-- The queue holds exactly the block numbers after the last ingested one, in
    order, up to the last queued one. -/
structure Pipelined (service : IngestionService) (state : IngestState) (chain : Building) : Prop extends
    Chained service state.lastIngested chain where
  ahead : state.lastIngested.number ≤ state.queuedBlockNumber
  queue : mainNumbers service.taskQueue =
    List.range' (state.lastIngested.number + 1) (state.queuedBlockNumber - state.lastIngested.number)

def ProcessOk : IngestionService × IngestionState → Prop
  | (service, .ingest state) => ∃ chain, Pipelined service state chain
  | (service, .recover state) => ∃ chain, Chained service state.lastIngested chain

/-- The pointer in etcd, if there is one, points to the snapshot of a well
    formed chain. -/
structure StoreOk (world : World) : Prop where
  noLegacy : world.store.legacyRecent = none
  recent : ∀ pointer, world.etcd.recent = some pointer → ∃ chain : Building, chain.WellFormed ∧
    world.store.snapshots[pointer.key]? = some chain.snapshot ∧
    pointer.firstBlock = chain.info.firstBlock.number ∧ pointer.lastBlock = chain.info.lastBlock.number
  older : ∀ pointer, world.etcd.recent = some pointer → pointer.key < world.store.nextKey

structure System.Ok (system : System) : Prop where
  store : StoreOk system.world
  process : ∀ running, system.process = some running → ProcessOk running
  options : ∀ running, system.process = some running → running.1.options = system.options

/-- What an event can do. -/
inductive Transition (system : System) : Event → Tick (IngestionService × IngestionState) → Prop
  /-- The event fails before it writes anything. -/
  | failed (event : Event) (fault : Fault IngestionError) : Transition system event ⟨[], .error fault⟩
  /-- A start that fails once the finalized block is stored. -/
  | startFailed {answers : InitializeAnswers} {finalized : Cursor} (idle : system.process = none)
      (answered : answers.finalized = .ok finalized) (fault : Fault IngestionError) :
      Transition system (.start answers) ⟨[.putFinalized finalized.number], .error fault⟩
  | startFailedFresh {answers : InitializeAnswers} {finalized : Cursor} (idle : system.process = none)
      (answered : answers.finalized = .ok finalized) (nothing : system.world.etcd.recent = none)
      (fault : Fault IngestionError) :
      Transition system (.start answers)
        ⟨[.putFinalized finalized.number, .putStartingBlock (startingBlock system.options)], .error fault⟩
  /-- A start without a published chain. -/
  | started {answers : InitializeAnswers} {finalized head : Cursor} {block : BlockInfo}
      (idle : system.process = none) (answered : answers.finalized = .ok finalized)
      (headIs : answers.head = .ok head) (nothing : system.world.etcd.recent = none)
      (fetched : answers.ingestBlock (startingBlock system.options) = .ok block)
      (first : block.number = startingBlock system.options) :
      Transition system (.start answers)
        ⟨.putFinalized finalized.number :: .putStartingBlock (startingBlock system.options) ::
            publishWrites system.world (Building.single block).snapshot,
          .ok ((IngestionService.new system.options system.supportsPending).withChain (.single block),
            ingestFrom finalized head block.cursor)⟩
  /-- A start from the published chain. -/
  | restarted {answers : InitializeAnswers} {finalized head : Cursor} {pointer : RecentSegmentPointer}
      {chain : Building} {state : IngestionState}
      (idle : system.process = none) (answered : answers.finalized = .ok finalized)
      (headIs : answers.head = .ok head)
      (published : system.world.etcd.recent = some pointer)
      (stored : system.world.store.snapshots[pointer.key]? = some chain.snapshot) (wf : chain.WellFormed)
      (restarts : Restarts finalized head chain.info.lastBlock answers state) :
      Transition system (.start answers)
        ⟨[.putFinalized finalized.number],
          .ok ((IngestionService.new system.options system.supportsPending).withChain chain.restored, state)⟩
  | finalizedSame {service : IngestionService} {state : IngestState} {chain : Building}
      (running : system.process = some (service, .ingest state)) (piped : Pipelined service state chain) :
      Transition system (.refreshFinalized (.ok state.finalized)) ⟨[], .ok (service, .ingest state)⟩
  | finalizedMoved {service : IngestionService} {state : IngestState} {chain : Building} {finalized : Cursor}
      (running : system.process = some (service, .ingest state)) (piped : Pipelined service state chain)
      (forward : state.finalized.number ≤ finalized.number) :
      Transition system (.refreshFinalized (.ok finalized))
        ⟨[.putFinalized finalized.number], .ok (service, .ingest { state with finalized })⟩
  | headSame {service : IngestionService} {state : IngestState} {chain : Building}
      (running : system.process = some (service, .ingest state)) (piped : Pipelined service state chain) :
      Transition system (.refreshHead state.head) ⟨[], .ok (service, .ingest state)⟩
  | headReorged {service : IngestionService} {state : IngestState} {chain : Building} {head : Cursor}
      (running : system.process = some (service, .ingest state)) (piped : Pipelined service state chain)
      (changed : state.head ≠ head) (ingested : head.number ≤ state.lastIngested.number)
      (notAhead : head.number ≤ state.head.number) :
      Transition system (.refreshHead head) ⟨[], .ok (service, recoverFrom state)⟩
  | headMoved {service : IngestionService} {state : IngestState} {chain : Building} {head : Cursor}
      (running : system.process = some (service, .ingest state)) (piped : Pipelined service state chain)
      (changed : state.head ≠ head)
      (ahead : state.lastIngested.number < head.number ∨ state.head.number < head.number) :
      Transition system (.refreshHead head)
        ⟨[], .ok (service.pushed head.number state.queuedBlockNumber, .ingest
          { state with
            head
            queuedBlockNumber :=
              state.queuedBlockNumber + service.pushCount head.number state.queuedBlockNumber })⟩
  | pendingIdle {service : IngestionService} {state : IngestState} {chain : Building}
      (running : system.process = some (service, .ingest state)) (piped : Pipelined service state chain) :
      Transition system .refreshPending ⟨[], .ok (service, .ingest state)⟩
  | pendingPushed {service : IngestionService} {state : IngestState} {chain : Building}
      (running : system.process = some (service, .ingest state)) (piped : Pipelined service state chain) :
      Transition system .refreshPending
        ⟨[], .ok
          (service.pushIngestPendingBlock state.lastIngested (state.pendingBlockState.generation + 1),
            .ingest { state with pendingBlockState := { state.pendingBlockState with queued := true } })⟩
  /-- The first task did not find its block. -/
  | taskNotFound {service : IngestionService} {state : IngestState} {chain : Building}
      {task : QueuedTask} {rest : List QueuedTask} {report : Report IngestionError}
      (running : system.process = some (service, .ingest state)) (piped : Pipelined service state chain)
      (queue : service.taskQueue = task :: rest) :
      Transition system (.taskResult (.finished (.error report)))
        ⟨[], .ok ({ service with taskQueue := rest }, recoverFrom state)⟩
  | pendingFinished {service : IngestionService} {state : IngestState} {chain : Building} {parent : Cursor}
      {generation : Nat} {rest : List QueuedTask} {block : Option PendingBlockInfo} {writes : List Write}
      {pendingBlockState : PendingBlockState}
      (running : system.process = some (service, .ingest state)) (piped : Pipelined service state chain)
      (queue : service.taskQueue = .pending parent generation :: rest)
      (effect : writes = [] ∨ ∃ generation, writes = [.putPending generation]) :
      Transition system (.taskResult (.finished (.ok (.pending block))))
        ⟨writes, .ok ({ service with taskQueue := rest }, .ingest { state with pendingBlockState })⟩
  /-- The block of the first task does not extend the chain. -/
  | blockForeign {service : IngestionService} {state : IngestState} {chain : Building} {block : BlockInfo}
      {rest : List QueuedTask}
      (running : system.process = some (service, .ingest state)) (piped : Pipelined service state chain)
      (queue : service.taskQueue = .main block.number :: rest)
      (next : block.number = state.lastIngested.number + 1)
      (foreign : canGrow (.building chain) block = false) :
      Transition system (.taskResult (.finished (.ok (.main block))))
        ⟨[], .ok ({ service with taskQueue := rest }, recoverFrom state)⟩
  | blockAppended {service : IngestionService} {state : IngestState} {chain : Building} {block : BlockInfo}
      {rest : List QueuedTask}
      (running : system.process = some (service, .ingest state)) (piped : Pipelined service state chain)
      (queue : service.taskQueue = .main block.number :: rest)
      (next : block.number = state.lastIngested.number + 1)
      (allowed : canGrow (.building chain) block = true)
      (short : (chain.grown block).canonical.length <
        system.options.chainSegmentSize + system.options.chainSegmentUploadOffsetSize) :
      Transition system (.taskResult (.finished (.ok (.main block))))
        ⟨appendWrites system.world state block (chain.grown block),
          .ok (({ service with taskQueue := rest }.withChain (chain.grown block)).resumeIngestion
            state block.cursor)⟩
  /-- The block completes a segment, which is taken off the chain. -/
  | blockUploaded {service : IngestionService} {state : IngestState} {chain : Building} {block : BlockInfo}
      {rest : List QueuedTask} {lastHash nextHash : Hash}
      (running : system.process = some (service, .ingest state)) (piped : Pipelined service state chain)
      (queue : service.taskQueue = .main block.number :: rest)
      (next : block.number = state.lastIngested.number + 1)
      (allowed : canGrow (.building chain) block = true)
      (uploads : Uploads system.options (chain.grown block) lastHash nextHash) :
      Transition system (.taskResult (.finished (.ok (.main block))))
        ⟨.putSegment ((chain.grown block).takenSegment system.options.chainSegmentSize lastHash) ::
            publishWrites system.world
              ((chain.grown block).remaining system.options.chainSegmentSize lastHash nextHash).snapshot,
          .ok (({ service with taskQueue := rest }.withChain
            ((chain.grown block).remaining system.options.chainSegmentSize lastHash nextHash)).resumeIngestion
              state block.cursor)⟩
  | recoverCancelled {service : IngestionService} {state : RecoverState} {chain : Building}
      {poll : Nat → RecoverPoll}
      (running : system.process = some (service, .recover state))
      (chained : Chained service state.lastIngested chain) :
      Transition system (.recover poll) ⟨[], .ok (service, .recover state)⟩
  | recovered {service : IngestionService} {state : RecoverState} {chain : Building}
      {poll : Nat → RecoverPoll} {newHead : Cursor}
      (running : system.process = some (service, .recover state))
      (chained : Chained service state.lastIngested chain)
      (found : findCommonBlock chain.snapshot poll state.lastIngested.number state.lastIngested.hash =
        .ok (some newHead)) :
      Transition system (.recover poll)
        ⟨publishWrites system.world (chain.shrinkTo newHead).snapshot,
          .ok (service.taskQueueClear.withChain (chain.shrinkTo newHead),
            IngestionService.recovered state newHead)⟩

@[simp] theorem mainNumbers_main (number : Nat) (rest : List QueuedTask) :
    mainNumbers (.main number :: rest) = number :: mainNumbers rest := rfl

@[simp] theorem mainNumbers_pending (parent : Cursor) (generation : Nat) (rest : List QueuedTask) :
    mainNumbers (.pending parent generation :: rest) = mainNumbers rest := rfl

theorem mainNumbers_append (first second : List QueuedTask) :
    mainNumbers (first ++ second) = mainNumbers first ++ mainNumbers second :=
  List.filterMap_append

theorem mainNumbers_map_main (numbers : List Nat) : mainNumbers (numbers.map .main) = numbers := by
  rw [mainNumbers, List.filterMap_map]
  exact List.filterMap_some

variable {service : IngestionService} {state : IngestState} {chain : Building}

/-- The first block task is the one for the next block. -/
theorem Pipelined.first_main (piped : Pipelined service state chain) {number rest}
    (queue : service.taskQueue = .main number :: rest) :
    number = state.lastIngested.number + 1 ∧
      state.lastIngested.number < state.queuedBlockNumber ∧
      mainNumbers rest = List.range' (state.lastIngested.number + 2)
        (state.queuedBlockNumber - (state.lastIngested.number + 1)) := by
  have numbers := piped.queue
  rw [queue, mainNumbers_main] at numbers
  cases count : state.queuedBlockNumber - state.lastIngested.number with
  | zero => simp [count] at numbers
  | succ =>
    rw [count, List.range'_succ, List.cons.injEq] at numbers
    refine ⟨numbers.1, by omega, ?_⟩
    rw [numbers.2]
    congr 1
    omega

theorem StoreOk.recentSegment_cases {world} (ok : StoreOk world) :
    (world.etcd.recent = none ∧ recentSegment world = .ok none) ∨
    (∃ pointer chain, world.etcd.recent = some pointer ∧ Building.WellFormed chain ∧
      world.store.snapshots[pointer.key]? = some chain.snapshot ∧
      recentSegment world = .ok (some chain.snapshot)) := by
  cases recent : world.etcd.recent with
  | none => exact .inl ⟨rfl, by rw [recentSegment, recent]⟩
  | some pointer =>
    obtain ⟨chain, wf, stored, first, last⟩ := ok.recent pointer recent
    refine .inr ⟨pointer, chain, rfl, wf, stored, ?_⟩
    have ordered := wf.first_le_last
    rw [recentSegment, recent]
    simp only [World.getRecentSnapshot, stored]
    rw [if_neg (by omega), if_neg]
    rintro (wrongFirst | wrongLast)
    · exact wrongFirst first.symm
    · exact wrongLast last.symm

theorem StoreOk.recentSegment_some {world} (ok : StoreOk world) {pointer segment}
    (published : world.etcd.recent = some pointer) (stored : world.store.snapshots[pointer.key]? = some segment) :
    recentSegment world = .ok (some segment) := by
  rcases ok.recentSegment_cases with ⟨none, -⟩ | ⟨_, _, recent, -, otherStored, found⟩
  · rw [published] at none
    cases none
  · cases published.symm.trans recent
    rw [found, ← otherStored, stored]

variable {tick : Tick (IngestionService × IngestionState)} {system : System}

namespace System

theorem Ok.start_transition (ok : system.Ok) (idle : system.process = none) {answers : InitializeAnswers}
    (accepted : answers.accepts system.options = true) :
    Transition system (.start answers)
      (initializeService system.world (.new system.options system.supportsPending) answers) := by
  rcases initializeService_cases system.world system.options system.supportsPending answers
      ok.store.noLegacy with
    ⟨fault, failed⟩ | ⟨finalized, answered, ⟨fault, failed⟩ | ⟨nothing, fault, failed⟩ |
      ⟨head, block, headIs, nothing, fetched, done⟩ |
      ⟨head, segment, state, headIs, published, restarts, done⟩⟩
  · rw [failed]
    exact .failed _ fault
  · rw [failed]
    exact .startFailed idle answered fault
  · rcases ok.store.recentSegment_cases with ⟨none, -⟩ | ⟨pointer, chain, -, -, -, some⟩
    · rw [failed]
      exact .startFailedFresh idle answered none fault
    · rw [some] at nothing
      exact absurd (Except.ok.inj nothing) (by simp)
  · rcases ok.store.recentSegment_cases with ⟨none, -⟩ | ⟨pointer, chain, -, -, -, some⟩
    · rw [done]
      rw [InitializeAnswers.accepts, fetched] at accepted
      exact .started idle answered headIs none fetched (of_decide_eq_true accepted)
    · rw [some] at nothing
      exact absurd (Except.ok.inj nothing) (by simp)
  · rcases ok.store.recentSegment_cases with ⟨-, none⟩ | ⟨_, _, recent, wf, stored, some⟩
    · rw [none] at published
      exact absurd (Except.ok.inj published) (by simp)
    · rw [some] at published
      cases published
      rw [done, Building.restore_snapshot]
      exact .restarted idle answered headIs recent stored wf restarts

theorem Ok.task_transition (ok : system.Ok) {service state} (running : system.process = some (service, .ingest state))
    {task rest} (queue : service.taskQueue = task :: rest) {result} (accepted : task.accepts result = true) :
    Transition system (.taskResult result)
      (tickWithTaskResult system.world { service with taskQueue := rest } state (some result)) := by
  obtain ⟨chain, piped⟩ := ok.process _ running
  cases result with
  | joinError => exact .failed _ _
  | finished answer =>
  cases answer with
  | error report =>
    simp only [tickWithTaskResult]
    split_ifs
    · exact .taskNotFound running piped queue
    · exact .failed _ _
  | ok finished =>
  cases task with
  | pending parent generation =>
    cases finished with
    | main block => exact absurd accepted (by simp [QueuedTask.accepts])
    | pending block =>
      cases block with
      | none => exact .pendingFinished running piped queue (.inl rfl)
      | some block => exact .pendingFinished running piped queue (.inr ⟨block.generation, rfl⟩)
  | main number =>
    cases finished with
    | pending block => exact absurd accepted (by simp [QueuedTask.accepts])
    | main block =>
      obtain rfl : block.number = number := by simpa [QueuedTask.accepts] using accepted
      have next := (piped.first_main queue).1
      have grownWf : (chain.grown block).WellFormed := piped.wf.grown (piped.last ▸ next)
      have sameOptions : service.options = system.options := ok.options _ running
      rcases ingestBlock_cases system.world { service with taskQueue := rest } state block
          piped.builder grownWf with
        ⟨foreign, done⟩ | ⟨fault, -, failed⟩ | ⟨allowed, short, done⟩ |
          ⟨lastHash, nextHash, allowed, uploads, done⟩
      · rw [tickWithTaskResult, done]
        exact .blockForeign running piped queue next foreign
      · rw [tickWithTaskResult, failed]
        exact .failed _ fault
      · rw [tickWithTaskResult, done]
        rw [show ({ service with taskQueue := rest } : IngestionService).options = system.options
          from sameOptions] at short
        exact .blockAppended running piped queue next allowed short
      · rw [tickWithTaskResult, done]
        simp only [sameOptions] at uploads
        simpa only [sameOptions] using Transition.blockUploaded running piped queue next allowed uploads

theorem Ok.transition (ok : system.Ok) {event} (planned : system.plan event = some tick) :
    Transition system event tick := by
  cases running : system.process with
  | none =>
    cases event with
    | start answers =>
      simp only [plan, running, Option.ite_none_right_eq_some, Option.some.injEq] at planned
      obtain ⟨accepted, rfl⟩ := planned
      exact ok.start_transition running accepted
    | _ => simp [plan, running] at planned
  | some current =>
  obtain ⟨service, state | state⟩ := current
  · obtain ⟨chain, piped⟩ := ok.process _ running
    cases event with
    | start | recover => simp [plan, running] at planned
    | stop =>
      simp only [plan, running, Option.some.injEq] at planned
      exact planned ▸ .failed _ _
    | refreshFinalized answer =>
      simp only [plan, running, Option.some.injEq] at planned
      subst planned
      rcases tickRefreshFinalized_cases state answer with
        ⟨fault, -, failed⟩ | ⟨rfl, same⟩ | ⟨_, rfl, forward, moved⟩
      · rw [failed]
        exact .failed _ fault
      · rw [same]
        exact .finalizedSame running piped
      · rw [moved]
        exact .finalizedMoved running piped forward
    | refreshHead head =>
      simp only [plan, running, Option.some.injEq] at planned
      subst planned
      rcases tickRefreshHead_cases service state head with
        ⟨rfl, same⟩ | ⟨changed, ingested, notAhead, reorged⟩ | ⟨changed, ahead, moved⟩
      · rw [same]
        exact .headSame running piped
      · rw [reorged]
        exact .headReorged running piped changed ingested notAhead
      · rw [moved]
        exact .headMoved running piped changed ahead
    | refreshPending =>
      simp only [plan, running, Option.ite_none_right_eq_some, Option.some.injEq] at planned
      obtain ⟨-, rfl⟩ := planned
      rcases tickRefreshPending_cases service state with same | ⟨-, -, pushed⟩
      · rw [same]
        exact .pendingIdle running piped
      · rw [pushed]
        exact .pendingPushed running piped
    | taskResult result =>
      cases queue : service.taskQueue with
      | nil => simp [plan, running, queue] at planned
      | cons task rest =>
        simp only [plan, running, queue, Option.ite_none_right_eq_some, Option.some.injEq] at planned
        obtain ⟨accepted, rfl⟩ := planned
        exact ok.task_transition running queue accepted
  · obtain ⟨chain, chained⟩ := ok.process _ running
    cases event with
    | recover poll =>
      simp only [plan, running, Option.some.injEq] at planned
      subst planned
      rcases tickRecover_cases system.world service state poll chained.builder chained.wf chained.last with
        ⟨fault, -, failed⟩ | ⟨-, cancelled⟩ | ⟨_, found, done⟩
      · rw [failed]
        exact .failed _ fault
      · rw [cancelled]
        exact .recoverCancelled running chained
      · rw [done]
        exact .recovered running chained found
    | stop =>
      simp only [plan, running, Option.some.injEq] at planned
      exact planned ▸ .failed _ _
    | _ => simp [plan, running] at planned

end System

/-! ## The invariant is kept -/

theorem StoreOk.publish {world} (ok : StoreOk world) (wf : chain.WellFormed) :
    Effects.Always World.apply StoreOk world (publishWrites world chain.snapshot) := by
  -- the snapshot goes to a new key, so the one pointed to is still there
  have stored : StoreOk (world.apply (.putRecentSnapshot world.store.nextKey chain.snapshot)) := by
    refine ⟨ok.noLegacy, fun pointer recent => ?_, fun pointer recent => ?_⟩
    · obtain ⟨old, oldWf, oldStored, range⟩ := ok.recent pointer recent
      have older := ok.older pointer recent
      refine ⟨old, oldWf, ?_, range⟩
      simp only [World.apply, Std.ExtTreeMap.getElem?_insert, Std.compare_eq_iff_eq]
      rw [if_neg (by omega)]
      exact oldStored
    · exact Nat.lt_succ_of_lt (ok.older pointer recent)
  refine .cons ok (.cons stored (.nil ⟨ok.noLegacy, ?_, ?_⟩))
  · rintro pointer ⟨⟩
    refine ⟨chain, wf, ?_, rfl, rfl⟩
    simp only [World.apply, Std.ExtTreeMap.getElem?_insert_self]
  · rintro pointer ⟨⟩
    exact Nat.lt_succ_self _

theorem Transition.store (ok : system.Ok) {event} (transition : Transition system event tick) :
    Effects.Always World.apply StoreOk system.world tick.writes := by
  have store := ok.store
  have plain : ∀ {world : World}, StoreOk world → ∀ number,
      StoreOk (world.apply (.putFinalized number)) ∧ StoreOk (world.apply (.putStartingBlock number)) ∧
      StoreOk (world.apply (.putPending number)) := by
    intro world ok number
    have kept : ∀ etcd : Etcd, etcd.recent = world.etcd.recent → StoreOk { world with etcd := etcd } :=
      fun etcd same => ⟨ok.noLegacy, same ▸ ok.recent, same ▸ ok.older⟩
    exact ⟨kept _ rfl, kept _ rfl, kept _ rfl⟩
  cases transition with
  | failed | finalizedSame | headSame | headReorged | headMoved | pendingIdle | pendingPushed | taskNotFound
  | blockForeign | recoverCancelled => exact .nil store
  | startFailed | restarted | finalizedMoved => exact .cons store (.nil (plain store _).1)
  | startFailedFresh => exact .cons store (.cons (plain store _).1 (.nil (plain (plain store _).1 _).2.1))
  | started =>
    exact .cons store (.cons (plain store _).1
      (StoreOk.publish (plain (plain store _).1 _).2.1 (Building.single_wellFormed _)))
  | pendingFinished running piped queue effect =>
    rcases effect with rfl | ⟨-, rfl⟩
    · exact .nil store
    · exact .cons store (.nil (plain store _).2.2)
  | blockAppended running piped queue next =>
    simp only [appendWrites]
    split_ifs
    · exact store.publish (piped.wf.grown (piped.last ▸ next))
    · exact .nil store
  | blockUploaded running piped queue next allowed uploads =>
    have grownWf := piped.wf.grown (piped.last ▸ next)
    refine .cons store (StoreOk.publish ?_ (grownWf.remaining uploads.inside uploads.nextAt))
    exact ⟨store.noLegacy, store.recent, store.older⟩
  | recovered running chained found =>
    have lastHash := chained.last ▸ chained.wf.lastHash
    exact store.publish (chained.wf.shrinkTo (findCommonBlock_some chained.wf lastHash found).2.1)

theorem Pipelined.pushed (piped : Pipelined service state chain) (limit : Nat) (head : Cursor)
    (pendingBlockState : PendingBlockState) :
    Pipelined (service.pushed limit state.queuedBlockNumber)
      { state with
        head
        queuedBlockNumber := state.queuedBlockNumber + service.pushCount limit state.queuedBlockNumber
        pendingBlockState } chain := by
  refine ⟨⟨piped.builder, piped.wf, piped.last⟩, Nat.le_add_right_of_le piped.ahead, ?_⟩
  have ahead := piped.ahead
  simp only [IngestionService.pushed, mainNumbers_append, mainNumbers_map_main, piped.queue]
  rw [show state.queuedBlockNumber + 1 = state.lastIngested.number + 1 +
      (state.queuedBlockNumber - state.lastIngested.number) by omega, List.range'_append_1]
  congr 1
  omega

theorem Chained.idle {last} (builder : service.chainBuilder = .building chain) (wf : chain.WellFormed)
    (lastIs : chain.info.lastBlock = last) (empty : service.taskQueue = []) (finalized head : Cursor)
    (pendingBlockState : PendingBlockState) :
    Pipelined service ⟨finalized, head, last, last.number, pendingBlockState⟩ chain := by
  refine ⟨⟨builder, wf, lastIs⟩, le_rfl, ?_⟩
  simp only [empty, mainNumbers, List.filterMap_nil, Nat.sub_self, List.range'_zero]

/-- The pipeline after the first block task was appended to the chain. -/
theorem Pipelined.resumed {next : Building} (piped : Pipelined service state chain) {block : BlockInfo} {rest}
    (queue : service.taskQueue = .main block.number :: rest) (wf : next.WellFormed)
    (last : next.info.lastBlock = block.cursor) :
    ProcessOk (({ service with taskQueue := rest }.withChain next).resumeIngestion state block.cursor) := by
  obtain ⟨number, _, rest_numbers⟩ := piped.first_main queue
  rw [resumeIngestion_eq]
  have advanced : Pipelined ({ service with taskQueue := rest }.withChain next)
      { state with lastIngested := block.cursor } next := by
    refine ⟨⟨rfl, wf, last⟩, ?_, ?_⟩
    · simp only [BlockInfo.cursor]
      omega
    · simp only [withChain, BlockInfo.cursor, rest_numbers, number]
  exact ⟨next, advanced.pushed state.head.number state.head .default⟩

theorem Transition.process (ok : system.Ok) {event} (transition : Transition system event tick) {running}
    (returned : tick.result = .ok running) : ProcessOk running ∧ running.1.options = system.options := by
  cases transition with
  | failed | startFailed | startFailedFresh => cases returned
  | started =>
    cases returned
    exact ⟨⟨_, Chained.idle rfl (Building.single_wellFormed _) rfl rfl _ _ _⟩, rfl⟩
  | restarted idle answered headIs published stored wf restarts =>
    cases returned
    rcases restarts with rfl | ⟨rfl, -⟩
    · exact ⟨⟨_, rfl, wf.restored, rfl⟩, rfl⟩
    · exact ⟨⟨_, Chained.idle rfl wf.restored rfl rfl _ _ _⟩, rfl⟩
  | finalizedSame isRunning piped | headSame isRunning piped | pendingIdle isRunning piped =>
    cases returned
    exact ⟨⟨_, piped⟩, (ok.options _ isRunning :)⟩
  | finalizedMoved isRunning piped =>
    cases returned
    exact ⟨⟨_, ⟨piped.builder, piped.wf, piped.last⟩, piped.ahead, piped.queue⟩, (ok.options _ isRunning :)⟩
  | headReorged isRunning piped =>
    cases returned
    exact ⟨⟨_, piped.toChained⟩, (ok.options _ isRunning :)⟩
  | headMoved isRunning piped =>
    cases returned
    exact ⟨⟨_, piped.pushed _ _ _⟩, (ok.options _ isRunning :)⟩
  | pendingPushed isRunning piped =>
    cases returned
    refine ⟨⟨_, ⟨piped.builder, piped.wf, piped.last⟩, piped.ahead, ?_⟩, (ok.options _ isRunning :)⟩
    simp only [pushIngestPendingBlock, mainNumbers_append, piped.queue]
    exact List.append_nil _
  | taskNotFound isRunning piped | blockForeign isRunning piped =>
    cases returned
    exact ⟨⟨_, piped.builder, piped.wf, piped.last⟩, (ok.options _ isRunning :)⟩
  | pendingFinished isRunning piped queue =>
    cases returned
    have numbers := piped.queue
    rw [queue, mainNumbers_pending] at numbers
    exact ⟨⟨_, ⟨piped.builder, piped.wf, piped.last⟩, piped.ahead, numbers⟩, (ok.options _ isRunning :)⟩
  | blockAppended isRunning piped queue next =>
    cases returned
    refine ⟨piped.resumed queue (piped.wf.grown (piped.last ▸ next)) rfl, ?_⟩
    rw [resumeIngestion_eq]
    exact (ok.options _ isRunning :)
  | blockUploaded isRunning piped queue next allowed uploads =>
    cases returned
    have grownWf := piped.wf.grown (piped.last ▸ next)
    refine ⟨piped.resumed queue (grownWf.remaining uploads.inside uploads.nextAt) rfl, ?_⟩
    rw [resumeIngestion_eq]
    exact (ok.options _ isRunning :)
  | recoverCancelled isRunning chained =>
    cases returned
    exact ⟨⟨_, chained⟩, (ok.options _ isRunning :)⟩
  | recovered isRunning chained found =>
    cases returned
    have lastHash := chained.last ▸ chained.wf.lastHash
    have wf := chained.wf.shrinkTo (findCommonBlock_some chained.wf lastHash found).2.1
    exact ⟨⟨_, Chained.idle rfl wf (Building.shrinkTo_last _ _) rfl _ _ _⟩, (ok.options _ isRunning :)⟩

namespace System

theorem fresh_ok (options : IngestionServiceOptions) (supportsPending : Bool) :
    (fresh options supportsPending).Ok where
  store := ⟨rfl, fun _ recent => absurd recent (by simp [fresh, World.fresh]),
    fun _ recent => absurd recent (by simp [fresh, World.fresh])⟩
  process _ running := absurd running (by simp [fresh])
  options _ running := absurd running (by simp [fresh])

theorem step_inv {next} (ok : system.Ok) {input} (stepped : system.step input = some next) :
    ∃ tick, Transition system input.event tick ∧ next = system.finish input.crash tick := by
  obtain ⟨tick, planned, rfl⟩ := Option.map_eq_some_iff.mp stepped
  exact ⟨tick, ok.transition planned, rfl⟩

theorem finish_options (system : System) (crash : Option Nat)
    (tick : Tick (IngestionService × IngestionState)) :
    (system.finish crash tick).options = system.options := by
  cases crash <;> rfl

theorem finish_process {crash running} (alive : (system.finish crash tick).process = some running) :
    crash = none ∧ tick.result = .ok running := by
  cases crash with
  | some => exact absurd alive (by simp [finish])
  | none => exact ⟨rfl, toOption_eq_some.mp alive⟩

/-- A property of the world that holds after every prefix of the writes holds
    after the event, whether or not the process died in the middle. -/
theorem finish_world {crash property} (always : Effects.Always World.apply property system.world tick.writes) :
    property (system.finish crash tick).world := by
  cases crash with
  | some count => exact always.take count
  | none => exact always.all

theorem Ok.step {next} (ok : system.Ok) {input} (stepped : system.step input = some next) : next.Ok := by
  obtain ⟨_, transition, rfl⟩ := step_inv ok stepped
  refine ⟨finish_world (transition.store ok), fun running alive => ?_, fun running alive => ?_⟩
  · exact (transition.process ok (finish_process alive).2).1
  · rw [finish_options]
    exact (transition.process ok (finish_process alive).2).2

theorem Ok.run {last} (ok : system.Ok) {inputs} (reached : Runs.run System.step system inputs = some last) : last.Ok :=
  Runs.run_invariant (fun _ _ _ _ before stepped => before.step stepped) ok reached

end System

end Starkstream
