import Starkstream.Ingestion.ChainEffect

/-! # Properties of the chain

The builder of a running service and the published snapshot hold the same chain at
different times: a restart takes up what was published.  A property of chains that
every operation on the builder keeps therefore holds of both in every run.
-/

namespace Starkstream

open CanonicalChainBuilder
open IngestionService

/-- The published chain has the property. -/
structure World.Publishes (property : Building → Prop) (world : World) : Prop where
  older : ∀ pointer, world.etcd.recent = some pointer → pointer.key < world.store.nextKey
  recent : ∀ pointer, world.etcd.recent = some pointer → ∃ chain : Building, chain.WellFormed ∧
    world.store.snapshots[pointer.key]? = some chain.snapshot ∧ property chain

/-- The chain of the builder and the published chain have the property. -/
structure System.Chains (property : Building → Prop) (system : System) : Prop where
  builder : ∀ running, system.process = some running → ∀ chain, running.1.chainBuilder = .building chain →
    property chain
  published : system.world.Publishes property

/-- What an event does to chains with the first property gives chains with the second. -/
structure System.Keeps (before after : Building → Prop) (system : System) (event : Event) : Prop where
  kept : ∀ chain, before chain → after chain
  restored : ∀ chain, before chain → after chain.restored
  started : ∀ answers block, event = .start answers → system.process = none → system.world.etcd.recent = none →
    answers.ingestBlock (startingBlock system.options) = .ok block → after (.single block)
  grown : ∀ service state chain block, event = .taskResult (.finished (.ok (.main block))) →
    system.process = some (service, .ingest state) → Pipelined service state chain → before chain →
    block.number = chain.info.lastBlock.number + 1 → canGrow (.building chain) block = true → after (chain.grown block)
  taken : ∀ service state chain block lastHash nextHash, event = .taskResult (.finished (.ok (.main block))) →
    system.process = some (service, .ingest state) → Pipelined service state chain →
    Uploads system.options (chain.grown block) lastHash nextHash → after (chain.grown block) →
    after ((chain.grown block).remaining system.options.chainSegmentSize lastHash nextHash)
  shrunk : ∀ chain newHead, before chain → chain.WellFormed → chain.hashAt newHead.number = some newHead.hash →
    after (chain.shrinkTo newHead)

namespace World.Publishes

variable {before after : Building → Prop} {world : World}

theorem mono (publishes : world.Publishes before) (imply : ∀ chain, before chain → after chain) :
    world.Publishes after := by
  refine ⟨publishes.older, fun pointer published => ?_⟩
  obtain ⟨chain, wf, stored, holds⟩ := publishes.recent pointer published
  exact ⟨chain, wf, stored, imply chain holds⟩

variable (publishes : world.Publishes after)
include publishes

theorem plain {options event} {effect : Write} (isPlain : effect.Plain options event) :
    (world.apply effect).Publishes after := by
  cases effect with
  | putFinalized | putStartingBlock | putPending => exact ⟨publishes.older, publishes.recent⟩
  | _ => exact isPlain.elim

theorem putSegment (segment : CanonicalChainSegment) : (world.apply (.putSegment segment)).Publishes after :=
  ⟨publishes.older, publishes.recent⟩

theorem publish {chain : Building} (wf : chain.WellFormed) (holds : after chain) :
    Effects.Always World.apply (World.Publishes after) world (publishWrites world chain.snapshot) := by
  -- the snapshot goes to a new key, so the one pointed to is still there
  have put : (world.apply (.putRecentSnapshot world.store.nextKey chain.snapshot)).Publishes after := by
    refine ⟨fun pointer published => Nat.lt_succ_of_lt (publishes.older pointer published), fun pointer published => ?_⟩
    obtain ⟨old, oldWf, stored, oldHolds⟩ := publishes.recent pointer published
    have older := publishes.older pointer published
    refine ⟨old, oldWf, ?_, oldHolds⟩
    simp only [World.apply, Std.ExtTreeMap.getElem?_insert, Std.compare_eq_iff_eq]
    rw [if_neg (by omega)]
    exact stored
  refine .cons publishes (.cons put (.nil ⟨?_, ?_⟩))
  · rintro pointer ⟨⟩
    exact Nat.lt_succ_self _
  · rintro pointer ⟨⟩
    refine ⟨chain, wf, ?_, holds⟩
    simp only [World.apply, Std.ExtTreeMap.getElem?_insert_self]

end World.Publishes

namespace ChainEffect

variable {before after : Building → Prop} {system : System} {event : Event}
  {tick : Tick (IngestionService × IngestionState)}

variable (effect : ChainEffect system event tick) (chains : system.Chains before)
  (keeps : system.Keeps before after event)
include effect chains keeps

theorem publishes : Effects.Always World.apply (World.Publishes after) system.world tick.writes := by
  have published := chains.published.mono keeps.kept
  cases effect with
  | kept plain => exact .of_kept published (fun _ member _ known => known.plain (plain _ member))
  | started idle answered nothing fetched =>
    have stored := published.plain (Write.plain_start answered system.options)
    have starting : Write.Plain system.options .stop (.putStartingBlock (startingBlock system.options)) := rfl
    exact .cons published (.cons stored ((stored.plain starting).publish (Building.single_wellFormed _)
      (keeps.started _ _ rfl idle nothing fetched)))
  | restarted idle answered =>
    exact .cons published (.nil (published.plain (Write.plain_start answered system.options)))
  | appended running piped next allowed isPublished =>
    have holds := keeps.grown _ _ _ _ rfl running piped (chains.builder _ running _ piped.builder) next allowed
    rcases isPublished with rfl | rfl
    · exact .nil published
    · exact published.publish (piped.wf.grown next) holds
  | uploaded running piped next allowed uploads =>
    have holds := keeps.grown _ _ _ _ rfl running piped (chains.builder _ running _ piped.builder) next allowed
    exact .cons published ((published.putSegment _).publish
      ((piped.wf.grown next).remaining uploads.inside uploads.nextAt)
      (keeps.taken _ _ _ _ _ _ rfl running piped uploads holds))
  | recovered running chained canonical =>
    exact published.publish (chained.wf.shrinkTo canonical)
      (keeps.shrunk _ _ (chains.builder _ running _ chained.builder) chained.wf canonical)

theorem builder {running} (returned : tick.result = .ok running) {chain}
    (isChain : running.1.chainBuilder = .building chain) : after chain := by
  cases effect with
  | kept plain same =>
    obtain ⟨earlier, wasRunning, builder⟩ := same running returned
    exact keeps.kept chain (chains.builder earlier wasRunning chain (builder.symm.trans isChain))
  | started idle answered nothing fetched first builder =>
    cases returned
    cases builder.symm.trans isChain
    exact keeps.started _ _ rfl idle nothing fetched
  | @restarted _ _ pointer published _ _ idle answered isPublished stored wf builder =>
    cases returned
    cases builder.symm.trans isChain
    obtain ⟨other, -, otherStored, holds⟩ := chains.published.recent _ isPublished
    have snapshots : other.snapshot = published.snapshot := Option.some.inj (otherStored.symm.trans stored)
    -- both are restored from the same snapshot
    have same : other.restored = published.restored := by
      have restored := Building.restore_snapshot other
      rw [snapshots, Building.restore_snapshot] at restored
      exact (CanonicalChainBuilder.building.inj restored).symm
    exact same ▸ keeps.restored other holds
  | appended running piped next allowed published builder =>
    cases returned
    cases builder.symm.trans isChain
    exact keeps.grown _ _ _ _ rfl running piped (chains.builder _ running _ piped.builder) next allowed
  | uploaded running piped next allowed uploads builder =>
    cases returned
    cases builder.symm.trans isChain
    have holds := keeps.grown _ _ _ _ rfl running piped (chains.builder _ running _ piped.builder) next allowed
    exact keeps.taken _ _ _ _ _ _ rfl running piped uploads holds
  | recovered running chained canonical last builder =>
    cases returned
    cases builder.symm.trans isChain
    exact keeps.shrunk _ _ (chains.builder _ running _ chained.builder) chained.wf canonical

end ChainEffect

namespace System.Chains

variable {before after : Building → Prop} {system next : System}

theorem fresh (property : Building → Prop) (options : IngestionServiceOptions) (supportsPending : Bool) :
    (System.fresh options supportsPending).Chains property :=
  ⟨nofun, nofun, nofun⟩

theorem step (chains : system.Chains before) (ok : system.Ok) {input : Input}
    (keeps : system.Keeps before after input.event) (stepped : system.step input = some next) : next.Chains after := by
  obtain ⟨_, transition, rfl⟩ := System.step_inv ok stepped
  have effect := transition.chainEffect
  constructor
  · intro running alive chain isChain
    exact effect.builder chains keeps (System.finish_process alive).2 isChain
  · exact System.finish_world (effect.publishes chains keeps)

end System.Chains

end Starkstream
