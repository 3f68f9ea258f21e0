import Starkstream.Ingestion.Run

/-! # What a head refresh detects

The remote head shows a reorg when it is below the last ingested block, or at
its height with another hash.  `tick_refresh_head` compares the head with the
head it was told before and not with the ingested chain, so it sees every such
reorg in exactly the states whose own head is not behind the ingested chain.
Which events lead out of these states is said by `HeadKeepsUp`.
-/

namespace Starkstream

open CanonicalChainBuilder
open IngestionService

/-- The hash on the canonical chain of the builder. -/
def IngestionService.canonicalHash (service : IngestionService) (number : Nat) : Option Hash :=
  service.chainBuilder.currentSegment.toOption.bind (·.hashAt number)

/-- The remote head is not on top of, and not the end of, the ingested chain. -/
def VisibleReorg (service : IngestionService) (state : IngestState) (head : Cursor) : Prop :=
  head.number < state.lastIngested.number ∨
    (head.number = state.lastIngested.number ∧ service.canonicalHash head.number ≠ some head.hash)

instance (service : IngestionService) (state : IngestState) (head : Cursor) :
    Decidable (VisibleReorg service state head) :=
  inferInstanceAs (Decidable (_ ∨ _))

def IngestionState.isRecover : IngestionState → Bool
  | .recover _ => true
  | .ingest _ => false

def DetectsVisibleReorgs (service : IngestionService) (state : IngestState) : Prop :=
  ∀ head, VisibleReorg service state head → (tickRefreshHead service state head).2.isRecover = true

/-- The head is further than the block, or it is the block. -/
def NotBehind (head block : Cursor) : Prop :=
  block.number < head.number ∨ head = block

instance (head block : Cursor) : Decidable (NotBehind head block) :=
  inferInstanceAs (Decidable (_ ∨ _))

/-- Whenever a block becomes the last ingested one, the head that the service
    holds is not behind it. -/
def System.HeadKeepsUp (system : System) : Event → Prop
  | .start answers => ∀ head, answers.head = .ok head →
      match recentSegment system.world with
      | .ok none => ∀ block, answers.ingestBlock (startingBlock system.options) = .ok block →
          NotBehind head block.cursor
      | .ok (some segment) => ∀ block, answers.blockInfo segment.info.lastBlock.number = .ok block →
          block.cursor = segment.info.lastBlock → NotBehind head block.cursor
      | .error _ => True
  | .taskResult (.finished (.ok (.main block))) => ∀ service state,
      system.process = some (service, .ingest state) → service.chainBuilder.canGrow block = true →
        NotBehind state.head block.cursor
  | .recover poll => ∀ service state, system.process = some (service, .recover state) →
      ∀ block, poll block.number = .answer (.ok block) →
        service.canonicalHash block.number = some block.hash → NotBehind state.existingHead block.cursor
  | _ => True

variable {service : IngestionService}

theorem Chained.canonicalHash_eq {last chain} (chained : Chained service last chain) (number : Nat) :
    service.canonicalHash number = chain.hashAt number := by
  rw [IngestionService.canonicalHash, chained.builder, Building.currentSegment_building]
  exact Building.snapshot_hashAt chained.wf number

theorem Chained.lastHash {last chain} (chained : Chained service last chain) :
    chain.hashAt last.number = some last.hash :=
  chained.last ▸ chained.wf.lastHash

/-- The head that the service already holds is the one that tells: when it is
    behind the chain, the refresh does not report it, and otherwise it reports
    everything. -/
theorem Pipelined.detects_iff {state chain} (piped : Pipelined service state chain) :
    DetectsVisibleReorgs service state ↔ NotBehind state.head state.lastIngested := by
  have lastHash := (piped.toChained.canonicalHash_eq _).trans piped.toChained.lastHash
  constructor
  · intro detects
    by_contra behind
    have visible : VisibleReorg service state state.head := by
      rw [NotBehind, not_or, not_lt] at behind
      rcases Nat.lt_or_eq_of_le behind.1 with below | level
      · exact .inl below
      · refine .inr ⟨level, fun same => behind.2 (Cursor.ext level ?_)⟩
        rw [level, lastHash] at same
        exact (Option.some.inj same).symm
    have reported := detects state.head visible
    rw [tickRefreshHead, if_pos rfl] at reported
    exact absurd reported (by simp [IngestionState.isRecover])
  · intro keepsUp head visible
    have upper : head.number ≤ state.lastIngested.number := visible.elim le_of_lt (fun level => level.1.le)
    rcases tickRefreshHead_cases service state head with
      ⟨same, -⟩ | ⟨-, -, -, reorged⟩ | ⟨-, ahead, -⟩
    · -- the head held is visible itself, so it is behind
      subst same
      rcases keepsUp with further | last
      · exact absurd upper (not_le.mpr further)
      · rcases visible with below | ⟨-, different⟩
        · exact absurd below (by rw [last]; exact lt_irrefl _)
        · rw [last, lastHash] at different
          exact absurd rfl different
    · rw [reorged]
      rfl
    · rcases keepsUp with further | last
      · omega
      · rw [last] at ahead
        omega

/-- The head of a process is not behind the chain it ingested. -/
def ProcessKeepsUp : IngestionService × IngestionState → Prop
  | (_, .ingest state) => NotBehind state.head state.lastIngested
  | (_, .recover _) => True

theorem Transition.keepsUp {system : System} (ok : system.Ok) {event tick} (transition : Transition system event tick)
    (guard : system.HeadKeepsUp event) (before : ∀ running, system.process = some running → ProcessKeepsUp running)
    {running} (returned : tick.result = .ok running) : ProcessKeepsUp running := by
  cases transition with
  | failed | startFailed | startFailedFresh => cases returned
  | started idle answered headIs nothing fetched =>
    cases returned
    have segment : recentSegment system.world = .ok none := by rw [recentSegment, nothing]
    have kept := guard _ headIs
    rw [segment] at kept
    exact kept _ fetched
  | restarted idle answered headIs published stored wf restarts =>
    cases returned
    rcases restarts with rfl | ⟨rfl, block, confirmed, same⟩
    · trivial
    · have kept := guard _ headIs
      rw [ok.store.recentSegment_some published stored] at kept
      have keptBlock := kept block confirmed same
      rw [same] at keptBlock
      exact keptBlock
  | finalizedSame isRunning | finalizedMoved isRunning | headSame isRunning | pendingIdle isRunning
  | pendingPushed isRunning | pendingFinished isRunning => cases returned; exact (before _ isRunning :)
  | headReorged | taskNotFound | blockForeign | recoverCancelled => cases returned; trivial
  | headMoved isRunning piped changed ahead =>
    cases returned
    have kept : NotBehind _ _ := before _ isRunning
    refine .inl ?_
    rcases kept with further | last
    · rcases ahead with above | above
      · exact above
      · exact further.trans above
    · rw [last] at ahead
      exact ahead.elim id id
  | blockAppended isRunning piped queue next allowed | blockUploaded isRunning piped queue next allowed =>
    cases returned
    rw [resumeIngestion_eq]
    exact (guard _ _ isRunning (piped.builder ▸ allowed) :)
  | recovered isRunning chained found =>
    cases returned
    obtain ⟨-, common, ⟨remote, polled, rfl⟩, -⟩ := findCommonBlock_some chained.wf chained.lastHash found
    exact guard _ _ isRunning remote polled ((chained.canonicalHash_eq _).trans common)

structure System.KeepsUp (system : System) : Prop where
  ok : system.Ok
  process : ∀ running, system.process = some running → ProcessKeepsUp running

theorem System.KeepsUp.step {system next : System} (keeps : system.KeepsUp) {input : Input}
    (guard : system.HeadKeepsUp input.event) (stepped : system.step input = some next) : next.KeepsUp := by
  refine ⟨keeps.ok.step stepped, fun running alive => ?_⟩
  obtain ⟨_, transition, rfl⟩ := step_inv keeps.ok stepped
  exact transition.keepsUp keeps.ok guard keeps.process (finish_process alive).2

/-- In every reachable state the refresh detects every visible reorg exactly when
    the head held by the service is not behind the chain it ingested, and that is
    so all along a run in which no block becomes the last ingested one while the
    head held is behind it. -/
theorem System.refreshHead_detects_iff (options : IngestionServiceOptions) (supportsPending : Bool)
    {inputs : List Input} {system : System}
    (reached : Runs.run System.step (.fresh options supportsPending) inputs = some system)
    {service : IngestionService} {state : IngestState}
    (running : system.process = some (service, .ingest state)) :
    (DetectsVisibleReorgs service state ↔ NotBehind state.head state.lastIngested) ∧
    (Runs.Meets System.step (fun before input => before.HeadKeepsUp input.event)
        (.fresh options supportsPending) inputs →
      DetectsVisibleReorgs service state) := by
  have fresh := System.fresh_ok options supportsPending
  obtain ⟨chain, piped⟩ := (fresh.run reached).process _ running
  refine ⟨piped.detects_iff, fun meets => piped.detects_iff.mpr ?_⟩
  have start : (System.fresh options supportsPending).KeepsUp :=
    ⟨fresh, fun _ alive => absurd alive (by simp [System.fresh])⟩
  have kept := Runs.run_guarded (fun _ _ _ keeps guard stepped => keeps.step guard stepped) start meets reached
  exact kept.process _ running

namespace StaleHead

def blockZero : BlockInfo := ⟨0, ⟨[1]⟩, ⟨[]⟩⟩
def blockOne : BlockInfo := ⟨1, ⟨[2]⟩, ⟨[1]⟩⟩
def blockTwo : BlockInfo := ⟨2, ⟨[3]⟩, ⟨[2]⟩⟩

def forward : List Input := [.startAt blockZero, .newHead blockTwo.cursor, .ingested blockOne]

/-- The head moves back to a new block 1 while the tasks for the old blocks 1 and
    2 are in flight. -/
def backwards : List Input :=
  [.startAt blockZero, .newHead blockTwo.cursor, .newHead ⟨1, ⟨[9]⟩⟩, .ingested blockOne, .ingested blockTwo]

end StaleHead

open StaleHead

theorem System.refreshHead_detects_forward :
    ∃ system service state, Runs.run System.step (.fresh .default false) forward = some system ∧
      system.process = some (service, .ingest state) ∧ state.lastIngested = blockOne.cursor ∧
      DetectsVisibleReorgs service state := by
  have reached : Runs.run System.step (.fresh .default false) forward = some _ := rfl
  have meets : Runs.Meets System.step (fun before input => before.HeadKeepsUp input.event)
      (.fresh .default false) forward := by
    refine .cons ?_ rfl (.cons trivial rfl (.cons ?_ rfl trivial))
    · rintro head ⟨⟩ block ⟨⟩
      exact .inr rfl
    · rintro service state ⟨⟩ -
      exact .inl (by decide)
  exact ⟨_, _, _, reached, rfl, rfl, (refreshHead_detects_iff .default false reached rfl).2 meets⟩

/-- The head that the service holds and is told again is block 1 of another
    chain; blocks 1 and 2 of the old one are ingested.  No recovery starts. -/
theorem System.refreshHead_misses_backwards :
    ∃ system service state, Runs.run System.step (.fresh .default false) backwards = some system ∧
      system.process = some (service, .ingest state) ∧
      VisibleReorg service state ⟨1, ⟨[9]⟩⟩ ∧
      (tickRefreshHead service state ⟨1, ⟨[9]⟩⟩).2.isRecover = false :=
  ⟨_, _, _, rfl, rfl, by decide, rfl⟩

end Starkstream
