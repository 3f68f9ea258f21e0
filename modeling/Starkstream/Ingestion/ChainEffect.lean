import Starkstream.Ingestion.Run

/-! # What an event does to the chain

Most events leave the builder, the chain store and the pointer as they are.  The
others start, restore, extend, split or shrink the chain; `ChainEffect` lists
them, with what they write.
-/

namespace Starkstream

open CanonicalChainBuilder
open IngestionService

/-- The finalized block that the node reports in an event. -/
def Event.finalizedAnswer : Event → Option Cursor
  | .start answers => answers.finalized.toOption
  | .refreshFinalized answer => answer.toOption
  | _ => none

def Event.offered (options : IngestionServiceOptions) : Event → Option BlockInfo
  | .start answers => (answers.ingestBlock (startingBlock options)).toOption
  | .taskResult (.finished (.ok (.main block))) => some block
  | _ => none

/-- The events that can change the chain of the builder. -/
def Event.movesChain : Event → Bool
  | .start _ => true
  | .taskResult (.finished (.ok (.main _))) => true
  | .recover _ => true
  | _ => false

/-- Writes that concern neither the chain store nor the pointer. -/
def Write.Plain (options : IngestionServiceOptions) (event : Event) : Write → Prop
  | .putFinalized number => ∃ finalized, event.finalizedAnswer = some finalized ∧ finalized.number = number
  | .putStartingBlock number => number = startingBlock options
  | .putPending _ => True
  | _ => False

theorem Write.plain_start {answers : InitializeAnswers} {finalized} (answered : answers.finalized = .ok finalized)
    (options : IngestionServiceOptions) : Write.Plain options (.start answers) (.putFinalized finalized.number) :=
  ⟨finalized, by rw [Event.finalizedAnswer, answered]; rfl, rfl⟩

inductive ChainEffect (system : System) : Event → Tick (IngestionService × IngestionState) → Prop
  | kept {event : Event} {tick : Tick (IngestionService × IngestionState)}
      (plain : ∀ write ∈ tick.writes, write.Plain system.options event)
      (same : ∀ after, tick.result = .ok after →
        ∃ before, system.process = some before ∧ after.1.chainBuilder = before.1.chainBuilder)
      (still : ∀ service state, tick.result = .ok (service, .ingest state) → event.movesChain = false) :
      ChainEffect system event tick
  | started {answers : InitializeAnswers} {finalized : Cursor} {block : BlockInfo}
      {service : IngestionService} {state : IngestState} (idle : system.process = none)
      (answered : answers.finalized = .ok finalized) (nothing : system.world.etcd.recent = none)
      (fetched : answers.ingestBlock (startingBlock system.options) = .ok block)
      (first : block.number = startingBlock system.options)
      (builder : service.chainBuilder = .building (.single block)) :
      ChainEffect system (.start answers)
        ⟨.putFinalized finalized.number :: .putStartingBlock (startingBlock system.options) ::
            publishWrites system.world (Building.single block).snapshot,
          .ok (service, .ingest state)⟩
  | restarted {answers : InitializeAnswers} {finalized : Cursor} {pointer : RecentSegmentPointer}
      {chain : Building} {service : IngestionService} {state : IngestionState}
      (idle : system.process = none) (answered : answers.finalized = .ok finalized)
      (published : system.world.etcd.recent = some pointer)
      (stored : system.world.store.snapshots[pointer.key]? = some chain.snapshot) (wf : chain.WellFormed)
      (builder : service.chainBuilder = .building chain.restored) :
      ChainEffect system (.start answers) ⟨[.putFinalized finalized.number], .ok (service, state)⟩
  | appended {before after : IngestionService} {state state' : IngestState} {chain : Building}
      {block : BlockInfo} {writes : List Write}
      (running : system.process = some (before, .ingest state)) (piped : Pipelined before state chain)
      (next : block.number = chain.info.lastBlock.number + 1)
      (allowed : canGrow (.building chain) block = true)
      (published : writes = [] ∨ writes = publishWrites system.world (chain.grown block).snapshot)
      (builder : after.chainBuilder = .building (chain.grown block)) :
      ChainEffect system (.taskResult (.finished (.ok (.main block)))) ⟨writes, .ok (after, .ingest state')⟩
  | uploaded {before after : IngestionService} {state state' : IngestState} {chain : Building}
      {block : BlockInfo} {lastHash nextHash : Hash}
      (running : system.process = some (before, .ingest state)) (piped : Pipelined before state chain)
      (next : block.number = chain.info.lastBlock.number + 1)
      (allowed : canGrow (.building chain) block = true)
      (uploads : Uploads system.options (chain.grown block) lastHash nextHash)
      (builder : after.chainBuilder = .building
        ((chain.grown block).remaining system.options.chainSegmentSize lastHash nextHash)) :
      ChainEffect system (.taskResult (.finished (.ok (.main block))))
        ⟨.putSegment ((chain.grown block).takenSegment system.options.chainSegmentSize lastHash) ::
            publishWrites system.world
              ((chain.grown block).remaining system.options.chainSegmentSize lastHash nextHash).snapshot,
          .ok (after, .ingest state')⟩
  | recovered {before after : IngestionService} {state : RecoverState} {state' : IngestState}
      {chain : Building} {poll : Nat → RecoverPoll} {newHead : Cursor}
      (running : system.process = some (before, .recover state))
      (chained : Chained before state.lastIngested chain)
      (canonical : chain.hashAt newHead.number = some newHead.hash)
      (last : state'.lastIngested = newHead)
      (builder : after.chainBuilder = .building (chain.shrinkTo newHead)) :
      ChainEffect system (.recover poll)
        ⟨publishWrites system.world (chain.shrinkTo newHead).snapshot, .ok (after, .ingest state')⟩

theorem Transition.chainEffect {system event tick} (transition : Transition system event tick) :
    ChainEffect system event tick := by
  cases transition with
  | failed => exact .kept (by simp) (by simp) (by simp)
  | startFailed idle answered =>
    refine .kept ?_ (by simp) (by simp)
    simp only [List.mem_singleton, forall_eq]
    exact Write.plain_start answered _
  | startFailedFresh idle answered =>
    refine .kept ?_ (by simp) (by simp)
    simp only [List.mem_cons, List.not_mem_nil, or_false, forall_eq_or_imp, forall_eq]
    exact ⟨Write.plain_start answered _, rfl⟩
  | started idle answered headIs nothing fetched first =>
    exact .started idle answered nothing fetched first rfl
  | restarted idle answered headIs published stored wf =>
    exact .restarted idle answered published stored wf rfl
  | finalizedSame running | headSame running | pendingIdle running
  | headReorged running | headMoved running | pendingPushed running | taskNotFound running =>
    refine .kept (by simp) ?_ (fun _ _ _ => rfl)
    rintro after ⟨⟩
    exact ⟨_, running, rfl⟩
  | finalizedMoved running =>
    refine .kept ?_ ?_ (fun _ _ _ => rfl)
    · simp only [List.mem_singleton, forall_eq]
      exact ⟨_, rfl, rfl⟩
    · rintro after ⟨⟩
      exact ⟨_, running, rfl⟩
  | pendingFinished running piped queue effect =>
    refine .kept ?_ ?_ (fun _ _ _ => rfl)
    · rcases effect with rfl | ⟨-, rfl⟩
      · simp
      · simp only [List.mem_singleton, forall_eq]
        trivial
    · rintro after ⟨⟩
      exact ⟨_, running, rfl⟩
  | blockForeign running | recoverCancelled running =>
    refine .kept (by simp) ?_ ?_
    · rintro after ⟨⟩
      exact ⟨_, running, rfl⟩
    · rintro service state ⟨⟩
  | blockAppended running piped queue next allowed =>
    rw [resumeIngestion_eq]
    refine .appended running piped (piped.last ▸ next) allowed ?_ rfl
    rw [appendWrites]
    split_ifs
    · exact .inr rfl
    · exact .inl rfl
  | blockUploaded running piped queue next allowed uploads =>
    rw [resumeIngestion_eq]
    exact .uploaded running piped (piped.last ▸ next) allowed uploads rfl
  | recovered running chained found =>
    have lastHash := chained.last ▸ chained.wf.lastHash
    have canonical := (findCommonBlock_some chained.wf lastHash found).2.1
    exact .recovered running chained canonical rfl rfl

end Starkstream
