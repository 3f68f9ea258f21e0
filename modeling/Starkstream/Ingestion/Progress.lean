import Starkstream.Ingestion.Run

/-! # Work that nobody takes up

Block tasks are pushed when the head changes and when a block task has finished.
An unchanged head is ignored, and without a task there is no result to wait for,
so a state with an empty queue below the known head waits for the node to move.
A start, a recovery and a pending task that was alone in the queue lead there.
-/

namespace Starkstream

open CanonicalChainBuilder
open IngestionService

namespace System

/-- While the known head is not queued, some task is. -/
def Working (system : System) : Prop :=
  ∀ service state, system.process = some (service, .ingest state) →
    state.queuedBlockNumber < state.head.number → service.taskQueue ≠ []

/-- The number of the block that a process starts from. -/
def resumeNumber (system : System) : Nat :=
  match system.world.etcd.recent with
  | some pointer => pointer.lastBlock
  | none => startingBlock system.options

/-- The event leaves nothing to do: a start finds no block after the one it starts
    from, a recovery finds that the node still has a block of the chain at or above
    the head it had reported, and a pending task that is alone in the queue ends
    when everything up to the head is queued. -/
def StaysBusy (system : System) (input : Input) : Prop :=
  match input.event with
  | .start answers => ∀ head, answers.head = .ok head → head.number ≤ system.resumeNumber
  | .recover poll => ∀ service state chain, system.process = some (service, .recover state) →
      service.chainBuilder = .building chain →
      ∃ cursor remote, state.existingHead.number ≤ cursor.number ∧ cursor.number ≤ state.lastIngested.number ∧
        chain.hashAt cursor.number = some cursor.hash ∧
        poll cursor.number = .answer (.ok remote) ∧ remote.cursor = cursor
  | .taskResult (.finished (.ok (.pending _))) => ∀ service state task,
      system.process = some (service, .ingest state) → service.taskQueue = [task] →
      state.head.number ≤ state.queuedBlockNumber
  | _ => True

theorem pushed_busy {service : IngestionService} (capacity : 1 ≤ service.options.maxConcurrentTasks) {head blockNumber}
    (left : blockNumber + service.pushCount head blockNumber < head) :
    (service.pushed head blockNumber).taskQueue ≠ [] := by
  intro empty
  simp only [IngestionService.pushed, List.append_eq_nil_iff, List.map_eq_nil_iff, List.range'_eq_nil_iff] at empty
  obtain ⟨idle, none⟩ := empty
  simp only [pushCount, idle, List.length_nil] at none left
  omega

theorem Ok.resumeNumber_published {system : System} (ok : system.Ok) {pointer} {chain : Building}
    (published : system.world.etcd.recent = some pointer)
    (stored : system.world.store.snapshots[pointer.key]? = some chain.snapshot) :
    system.resumeNumber = chain.info.lastBlock.number := by
  obtain ⟨other, -, otherStored, -, last⟩ := ok.store.recent pointer published
  have same : chain.snapshot.info = other.snapshot.info := by
    rw [Option.some.inj (stored.symm.trans otherStored)]
  rw [resumeNumber, published]
  exact last.trans (congrArg (fun info => info.lastBlock.number) same.symm)

end System

theorem Transition.working {system : System} (ok : system.Ok) (capacity : 1 ≤ system.options.maxConcurrentTasks)
    (working : system.Working) {input} (busy : system.StaysBusy input) {tick}
    (transition : Transition system input.event tick) {service state}
    (returned : tick.result = .ok (service, .ingest state)) (left : state.queuedBlockNumber < state.head.number) :
    service.taskQueue ≠ [] := by
  generalize eventIs : input.event = event at transition
  simp only [System.StaysBusy, eventIs] at busy
  cases transition with
  | failed | startFailed | startFailedFresh | headReorged isRunning piped | taskNotFound isRunning piped
  | blockForeign | recoverCancelled => cases returned
  | started idle answered headIs nothing fetched first =>
    cases returned
    have atMost := busy _ headIs
    rw [System.resumeNumber, nothing, ← first] at atMost
    exact absurd left (not_lt.mpr atMost)
  | restarted idle answered headIs published stored wf restarts =>
    cases returned
    rcases restarts with impossible | ⟨same, -⟩
    · cases impossible
    · cases same
      have atMost := busy _ headIs
      rw [ok.resumeNumber_published published stored] at atMost
      exact absurd left (not_lt.mpr atMost)
  | finalizedSame isRunning piped | finalizedMoved isRunning piped | headSame isRunning piped
  | pendingIdle isRunning =>
    cases returned
    exact working _ _ isRunning left
  | headMoved isRunning =>
    cases returned
    exact System.pushed_busy ((ok.options _ isRunning :) ▸ capacity) left
  | pendingPushed =>
    cases returned
    simp [pushIngestPendingBlock]
  | pendingFinished isRunning piped queue =>
    cases returned
    rintro empty
    have alone := busy _ _ _ isRunning (queue.trans (congrArg _ empty))
    exact absurd left (not_lt.mpr alone)
  | blockAppended isRunning | blockUploaded isRunning =>
    rw [resumeIngestion_eq] at returned
    cases returned
    exact System.pushed_busy ((ok.options _ isRunning :) ▸ capacity) left
  | @recovered _ _ _ _ newHead isRunning chained found =>
    cases returned
    obtain ⟨cursor, _, above, below, canonical, polled, same⟩ := busy _ _ _ isRunning chained.builder
    have lastHash := chained.last ▸ chained.wf.lastHash
    obtain ⟨-, -, -, misses⟩ := findCommonBlock_some chained.wf lastHash found
    have reaches : cursor.number ≤ newHead.number := by
      by_contra higher
      rcases misses cursor.number (not_le.mp higher) below cursor.hash canonical with
        ⟨_, answered, differs⟩ | ⟨_, answered, -⟩
      · rw [polled] at answered
        cases answered
        exact differs same
      · rw [polled] at answered
        cases answered
    exact absurd left (not_lt.mpr (above.trans reaches))

namespace System

/-- In every run whose events all leave nothing to do, the service never waits
    with known work. -/
theorem working_of_staysBusy {options : IngestionServiceOptions} {supportsPending : Bool}
    (capacity : 1 ≤ options.maxConcurrentTasks) {inputs : List Input} {system : System}
    (meets : Runs.Meets System.step StaysBusy (fresh options supportsPending) inputs)
    (reached : Runs.run System.step (fresh options supportsPending) inputs = some system) : system.Working := by
  have keep : ∀ (before : System) (input : Input) (after : System),
      (before.Ok ∧ 1 ≤ before.options.maxConcurrentTasks ∧ before.Working) → before.StaysBusy input →
      before.step input = some after → after.Ok ∧ 1 ≤ after.options.maxConcurrentTasks ∧ after.Working := by
    rintro before input after ⟨ok, room, working⟩ busy stepped
    obtain ⟨tick, transition, rfl⟩ := step_inv ok stepped
    refine ⟨ok.step stepped, (finish_options before input.crash tick) ▸ room, fun service state running left => ?_⟩
    exact transition.working ok room working busy (finish_process running).2 left
  exact (Runs.run_guarded keep ⟨fresh_ok _ _, capacity, nofun⟩ meets reached).2.2

end System

namespace Parked

def options : IngestionServiceOptions := ⟨1, 100, 1, none⟩

def first : BlockInfo := ⟨0, ⟨[1]⟩, ⟨[]⟩⟩

def startBehind : Input :=
  { event := .start
      { head := .ok ⟨2, ⟨[3]⟩⟩
        finalized := .ok first.cursor
        blockInfo := fun _ => .ok first
        ingestBlock := fun _ => .ok first
        deletesLegacyRecent := true
        deletesLegacyIngested := true }
    crash := none }

/-- The head and the finalized block are reported again. -/
def reports : List Input := [.newHead ⟨2, ⟨[3]⟩⟩, ⟨.refreshFinalized (.ok first.cursor), none⟩]

end Parked

open Parked

/-- Right after a start below the head the queue is empty, and the reports of the
    same head do not fill it. -/
theorem System.working_fails_startBehind :
    ∃ system service state, Runs.run System.step (.fresh Parked.options false) (startBehind :: reports) = some system ∧
      system.process = some (service, .ingest state) ∧ state.queuedBlockNumber = 0 ∧ state.head.number = 2 ∧
      service.taskQueue = [] ∧ ¬ system.Working := by
  obtain ⟨system, service, state, reached, running, queued, head, empty⟩ :
      ∃ system service state, Runs.run System.step (.fresh Parked.options false) (startBehind :: reports) =
          some system ∧ system.process = some (service, .ingest state) ∧ state.queuedBlockNumber = 0 ∧
          state.head.number = 2 ∧ service.taskQueue = [] := ⟨_, _, _, rfl, rfl, rfl, rfl, rfl⟩
  refine ⟨system, service, state, reached, running, queued, head, empty, fun working => ?_⟩
  exact working service state running (by omega) empty

/-- A start at the head, and a block that is found afterwards. -/
theorem System.working_of_staysBusy_atHead :
    ∃ system, Runs.run System.step (.fresh Parked.options false)
        [.startAt first, .newHead ⟨2, ⟨[3]⟩⟩, .ingested ⟨1, ⟨[2]⟩, ⟨[1]⟩⟩] = some system ∧ system.Working := by
  obtain ⟨system, reached⟩ : ∃ system, Runs.run System.step (.fresh Parked.options false)
      [.startAt first, .newHead ⟨2, ⟨[3]⟩⟩, .ingested ⟨1, ⟨[2]⟩, ⟨[1]⟩⟩] = some system := ⟨_, rfl⟩
  refine ⟨system, reached, working_of_staysBusy (by decide) ?_ reached⟩
  refine .cons ?_ rfl (.cons trivial rfl (.cons trivial rfl trivial))
  rintro head ⟨⟩
  exact le_rfl

end Starkstream
