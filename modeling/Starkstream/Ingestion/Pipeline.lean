import Starkstream.Ingestion.ChainEffect

/-! # The ingestion pipeline

Five ticks and two ways to restart keep the last ingested block, the last queued
block number, the task queue and the builder in step.  Runs here also contain the
calls that the select loop of the service disables: a pending refresh at any time,
and a task result although the queue is empty.
-/

namespace Starkstream

open CanonicalChainBuilder
open IngestionService

inductive TickInput where
  | input (input : Input)
  /-- `tick_refresh_pending` without the guard of the select loop. -/
  | refreshPending
  /-- `tick_with_task_result` when the queue has no task. -/
  | noTask

namespace System

def tick (system : System) : TickInput → Option System
  | .input input => system.step input
  | .refreshPending =>
    match system.process with
    | some (service, .ingest state) => some { system with process := some (tickRefreshPending service state) }
    | _ => none
  | .noTask =>
    match system.process with
    | some (service, .ingest state) =>
      match service.taskQueue with
      | [] => some (system.finish none (tickWithTaskResult system.world service state none))
      | _ :: _ => none
    | _ => none

/-- The builder and the block of the call to `grow` that an event leads to.  The
    first block of a fresh start, which is given to an empty builder, is left out. -/
def growCall (system : System) (event : Event) : Option (Building × BlockInfo) :=
  match system.plan event, system.process, event with
  | some _, some (service, .ingest _), .taskResult (.finished (.ok (.main block))) =>
    match service.chainBuilder with
    | .building chain => if canGrow service.chainBuilder block then some (chain, block) else none
    | .empty => none
  | _, _, _ => none

/-- The pipeline, in every state of the service. -/
structure InStep (system : System) : Prop where
  /-- The last ingested block is the last block of the builder. -/
  ingesting : ∀ service state, system.process = some (service, .ingest state) →
    ∃ chain, service.chainBuilder = .building chain ∧ chain.info.lastBlock = state.lastIngested
  /-- The queued block numbers are those after it, up to the last queued one. -/
  queued : ∀ service state, system.process = some (service, .ingest state) →
    state.lastIngested.number ≤ state.queuedBlockNumber ∧
    mainNumbers service.taskQueue =
      List.range' (state.lastIngested.number + 1) (state.queuedBlockNumber - state.lastIngested.number)
  recovering : ∀ service state, system.process = some (service, .recover state) →
    ∃ chain, service.chainBuilder = .building chain ∧ chain.info.lastBlock = state.lastIngested
  /-- A block given to `grow` is the successor of the last one, by number and,
      unless the hash of the last one is zero, by parent hash. -/
  successor : ∀ event chain block, system.growCall event = some (chain, block) →
    block.number = chain.info.lastBlock.number + 1 ∧
    (chain.info.lastBlock.hash.isZero = false → block.parent = chain.info.lastBlock.hash)

variable {system : System}

theorem Ok.moved (ok : system.Ok) {running} (processOk : ProcessOk running)
    (options : running.1.options = system.options) : System.Ok { system with process := some running } := by
  refine ⟨ok.store, ?_, ?_⟩
  · rintro _ ⟨⟩
    exact processOk
  · rintro _ ⟨⟩
    exact options

theorem Ok.tick {next} (ok : system.Ok) {input} (ticked : system.tick input = some next) : next.Ok := by
  cases input with
  | input => exact ok.step ticked
  | refreshPending =>
    simp only [System.tick] at ticked
    split at ticked
    · rename_i service state running
      cases ticked
      obtain ⟨_, piped⟩ := ok.process _ running
      -- without the guard the tick does nothing else than with it
      have transition : Transition system .refreshPending ⟨[], .ok (tickRefreshPending service state)⟩ := by
        rcases tickRefreshPending_cases service state with same | ⟨-, -, pushed⟩
        · rw [same]
          exact .pendingIdle running piped
        · rw [pushed]
          exact .pendingPushed running piped
      obtain ⟨processOk, options⟩ := transition.process ok rfl
      exact ok.moved processOk options
    · cases ticked
  | noTask =>
    simp only [System.tick] at ticked
    split at ticked
    · rename_i service state running
      split at ticked
      · cases ticked
        obtain ⟨chain, piped⟩ := ok.process _ running
        have processOk : ProcessOk (service.resumeIngestion state state.lastIngested) := by
          rw [resumeIngestion_eq]
          exact ⟨chain, piped.pushed _ _ _⟩
        have options : (service.resumeIngestion state state.lastIngested).1.options = system.options := by
          rw [resumeIngestion_eq]
          exact (ok.options _ running :)
        exact ok.moved processOk options
      · cases ticked
    · cases ticked

theorem Ok.run_ticks {last} (ok : system.Ok) {inputs} (reached : Runs.run System.tick system inputs = some last) :
    last.Ok :=
  Runs.run_invariant (fun _ _ _ _ before ticked => before.tick ticked) ok reached

theorem Ok.growCall_successor (ok : system.Ok) {event chain block} (given : system.growCall event = some (chain, block)) :
    block.number = chain.info.lastBlock.number + 1 ∧
    (chain.info.lastBlock.hash.isZero = false → block.parent = chain.info.lastBlock.hash) := by
  simp only [growCall] at given
  split at given
  · rename_i tick service state found running planned
    split at given
    · rename_i current builder
      split_ifs at given with allowed
      obtain ⟨rfl, rfl⟩ := Prod.mk.inj (Option.some.inj given)
      obtain ⟨_, piped⟩ := ok.process _ running
      obtain rfl := CanonicalChainBuilder.building.inj (builder.symm.trans piped.builder)
      -- the task at the front of the queue is the one for the next number
      have first : found.number = current.info.lastBlock.number + 1 := by
        cases queue : service.taskQueue with
        | nil => simp [plan, running, queue] at planned
        | cons task =>
          simp only [plan, running, queue, Option.ite_none_right_eq_some] at planned
          cases task with
          | pending => simp [QueuedTask.accepts] at planned
          | main number =>
            have same : found.number = number := by simpa [QueuedTask.accepts] using planned.1
            rw [same, piped.last]
            exact (piped.first_main queue).1
      refine ⟨first, fun nonzero => ?_⟩
      rw [builder, canGrow, if_neg (by simp [nonzero])] at allowed
      exact (beq_iff_eq.mp ((Bool.and_eq_true _ _).mp allowed).2).symm
    · cases given
  · cases given

/-- The pipeline is in step after any sequence of ticks, restarts and crashes. -/
theorem inStep_of_ticks {options : IngestionServiceOptions} {supportsPending : Bool} {inputs : List TickInput}
    {system : System} (reached : Runs.run System.tick (fresh options supportsPending) inputs = some system) :
    system.InStep := by
  have ok := (fresh_ok options supportsPending).run_ticks reached
  refine ⟨fun service state running => ?_, fun service state running => ?_, fun service state running => ?_,
    fun _ _ _ given => ok.growCall_successor given⟩
  · obtain ⟨chain, piped⟩ := ok.process _ running
    exact ⟨chain, piped.builder, piped.last⟩
  · obtain ⟨chain, piped⟩ := ok.process _ running
    exact ⟨piped.ahead, piped.queue⟩
  · obtain ⟨chain, chained⟩ := ok.process _ running
    exact ⟨chain, chained.builder, chained.last⟩

end System

namespace ZeroGenesis

def options : IngestionServiceOptions := ⟨2, 100, 1, none⟩

/-- A first block with the given hash, and a head two blocks later. -/
def headAhead (hash : Hash) : List TickInput :=
  [.input (.startAt ⟨0, hash, ⟨[]⟩⟩), .input (.newHead ⟨2, ⟨[3]⟩⟩)]

def block : BlockInfo := ⟨1, ⟨[2]⟩, ⟨[1]⟩⟩

end ZeroGenesis

open ZeroGenesis

theorem System.inStep_of_ticks_headAhead :
    ∃ system, Runs.run System.tick (.fresh ZeroGenesis.options false) (headAhead ⟨[1]⟩ ++ [.input (.ingested block)]) =
        some system ∧ system.InStep := by
  obtain ⟨system, reached⟩ : ∃ system, Runs.run System.tick (.fresh ZeroGenesis.options false)
      (headAhead ⟨[1]⟩ ++ [.input (.ingested block)]) = some system := ⟨_, rfl⟩
  exact ⟨system, reached, inStep_of_ticks reached⟩

/-- After a block with a zero hash, `grow` is given a block with another parent. -/
theorem System.growCall_foreign_parent :
    ∃ system chain, Runs.run System.tick (.fresh ZeroGenesis.options false) (headAhead ⟨[0]⟩) = some system ∧
      system.growCall (.taskResult (.finished (.ok (.main block)))) = some (chain, block) ∧
      chain.info.lastBlock = ⟨0, ⟨[0]⟩⟩ ∧ block.parent ≠ chain.info.lastBlock.hash := by
  refine ⟨_, _, rfl, rfl, rfl, ?_⟩
  decide

end Starkstream
