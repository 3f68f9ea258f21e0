import Starkstream.Ingestion.HeadRefresh
import Starkstream.Ingestion.Remote

/-! # What a recovery converges to

A recovery keeps the head that the service held before the reorg.  Against a
remote chain that does not change, the last ingested block after a recovery is
the highest block of the ingested chain that the remote chain has, so the next
head refresh goes back to recovering exactly when the remote head itself is that
block and is not past the head that was kept.
-/

namespace Starkstream

open IngestionService

/-- The remote head is a block of the ingested chain, and it is not past the head
    that the recovery keeps. -/
def ShrunkBelow (service : IngestionService) (state : RecoverState) (chain : RemoteChain) : Prop :=
  service.canonicalHash chain.head.number = some chain.head.hash ∧
    chain.head.number ≤ state.existingHead.number ∧ chain.head ≠ state.existingHead

instance (service : IngestionService) (state : RecoverState) (chain : RemoteChain) :
    Decidable (ShrunkBelow service state chain) :=
  inferInstanceAs (Decidable (_ ∧ _ ∧ _))

theorem tickRefreshHead_isRecover_iff (service : IngestionService) (state : IngestState) (head : Cursor) :
    (tickRefreshHead service state head).2.isRecover = true ↔
      state.head ≠ head ∧ head.number ≤ state.lastIngested.number ∧ head.number ≤ state.head.number := by
  rcases tickRefreshHead_cases service state head with
    ⟨same, result⟩ | ⟨changed, ingested, notAhead, result⟩ | ⟨changed, _, result⟩
  · simp [result, same, IngestionState.isRecover]
  · simp [result, changed, ingested, notAhead, IngestionState.isRecover, recoverFrom]
  · simp only [result, IngestionState.isRecover, Bool.false_eq_true, false_iff]
    omega

/-- Against an unchanged chain, the recovery stops at the remote head exactly
    when the remote head is on the ingested chain. -/
theorem Chained.common_at_head_iff {service last chain} (chained : Chained service last chain) {poll remote}
    (honest : ∀ number, (poll number).From remote number) {newHead}
    (found : findCommonBlock chain.snapshot poll last.number last.hash = .ok (some newHead)) :
    remote.head.number ≤ newHead.number ↔ service.canonicalHash remote.head.number = some remote.head.hash := by
  obtain ⟨_, common, ⟨block, polled, rfl⟩, missed⟩ :=
    findCommonBlock_some chained.wf chained.lastHash found
  obtain ⟨_, headAt, headIs⟩ := remote.blockAt_head
  have blockAt : remote.blockAt block.number = some block := by
    have answered := honest block.number
    rw [show poll block.number = .answer (.ok block) from polled] at answered
    exact answered
  constructor
  · intro reaches
    have level : block.number = remote.head.number :=
      le_antisymm (RemoteChain.blockAt_number blockAt).2 reaches
    rw [level, headAt] at blockAt
    cases blockAt
    rw [← headIs]
    exact (chained.canonicalHash_eq _).trans common
  · intro canonical
    by_contra lower
    have canonicalAt := (chained.canonicalHash_eq _).symm.trans canonical
    have inside := (chained.wf.hashAt_range canonicalAt).2
    rw [chained.last] at inside
    rcases missed remote.head.number (not_le.mp lower) inside _ canonicalAt with
      ⟨_, answered, different⟩ | ⟨_, answered, notFound⟩
    · have from_ := honest remote.head.number
      rw [answered] at from_
      cases headAt.symm.trans from_
      exact different headIs
    · have from_ := honest remote.head.number
      rw [answered] at from_
      exact absurd (headAt.symm.trans (from_ notFound)) (by simp)

/-- After a recovery against a chain that does not change, the next head refresh
    with the head of that chain goes on ingesting, unless the remote chain only
    shrank below the head held before. -/
theorem System.recovery_converges_iff (options : IngestionServiceOptions) (supportsPending : Bool)
    {inputs : List Input} {system : System}
    (reached : Runs.run System.step (.fresh options supportsPending) inputs = some system)
    {service : IngestionService} {state : RecoverState}
    (running : system.process = some (service, .recover state))
    {remote : RemoteChain} {poll : Nat → RecoverPoll} (honest : ∀ number, (poll number).From remote number)
    {service' : IngestionService} {state' : IngestState}
    (succeeded : (tickRecover system.world service state poll).result = .ok (service', .ingest state')) :
    (tickRefreshHead service' state' remote.head).2.isRecover = false ↔ ¬ ShrunkBelow service state remote := by
  obtain ⟨chain, chained⟩ := ((System.fresh_ok options supportsPending).run reached).process _ running
  rcases tickRecover_cases system.world service state poll chained.builder chained.wf chained.last with
    ⟨fault, -, failed⟩ | ⟨-, cancelled⟩ | ⟨newHead, found, done⟩
  · rw [failed] at succeeded
    cases succeeded
  · rw [cancelled] at succeeded
    cases succeeded
  · rw [done] at succeeded
    cases succeeded
    rw [← Bool.not_eq_true, tickRefreshHead_isRecover_iff, ShrunkBelow,
      ← chained.common_at_head_iff honest found]
    exact not_congr ⟨fun ⟨changed, ingested, notAhead⟩ => ⟨ingested, notAhead, changed.symm⟩,
      fun ⟨ingested, notAhead, changed⟩ => ⟨changed.symm, ingested, notAhead⟩⟩

open StaleHead

/-- Three blocks are ingested and the node goes back to the second of them. -/
def shrinking : List Input :=
  [.startAt blockZero, .newHead blockTwo.cursor, .ingested blockOne, .ingested blockTwo,
    .newHead blockOne.cursor]

def shrunkRemote : RemoteChain := ⟨[blockZero.hash, blockOne.hash], blockZero.parent, by simp⟩

def replacedRemote : RemoteChain := ⟨[blockZero.hash, blockOne.hash, ⟨[9]⟩], blockZero.parent, by simp⟩

theorem System.recovery_converges_replaced :
    ∃ system service state service' state',
      Runs.run System.step (.fresh .default false) shrinking = some system ∧
      system.process = some (service, .recover state) ∧
      (tickRecover system.world service state replacedRemote.poll).result = .ok (service', .ingest state') ∧
      ¬ ShrunkBelow service state replacedRemote ∧
      (tickRefreshHead service' state' replacedRemote.head).2.isRecover = false := by
  have reached : Runs.run System.step (.fresh .default false) shrinking = some _ := rfl
  refine ⟨_, _, _, _, _, reached, rfl, rfl, ?_, ?_⟩
  · decide
  · exact (recovery_converges_iff .default false reached rfl replacedRemote.poll_from rfl).mpr (by decide)

/-- Block 2 is gone, the recovery ends at block 1, which is the remote head, and
    the next refresh with that head starts another recovery. -/
theorem System.recovery_repeats_shrunk :
    ∃ system service state service' state',
      Runs.run System.step (.fresh .default false) shrinking = some system ∧
      system.process = some (service, .recover state) ∧
      (tickRecover system.world service state shrunkRemote.poll).result = .ok (service', .ingest state') ∧
      (tickRefreshHead service' state' shrunkRemote.head).2.isRecover = true :=
  ⟨_, _, _, _, _, rfl, rfl, rfl, rfl⟩

end Starkstream
