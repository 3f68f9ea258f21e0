import Starkstream.ChainView.View
import Starkstream.Ingestion.Finality
import Starkstream.Lib.Tiling

/-! # Chain segments behind the published chain

Ingestion stores a chain segment before it publishes the snapshot from which the
segment was cut off, so that at every crash point a reader of the snapshot finds
the segments below it.  Restarts begin with the published snapshot, and what they
store again takes the place of a segment with the same blocks.
-/

namespace Starkstream

open CanonicalChainBuilder
open IngestionService

theorem Building.takenSegment_hashAt_some {state : Building} {size lastHash number}
    (inside : size ≤ state.canonical.length) (lower : state.info.firstBlock.number ≤ number)
    (upper : number < state.info.firstBlock.number + size) :
    ∃ hash, (state.takenSegment size lastHash).hashAt number = some hash := by
  obtain ⟨i, rfl⟩ := Nat.exists_eq_add_of_le lower
  have index : i < (state.canonical.take size).length := by
    rw [List.length_take]
    omega
  have present := List.getElem?_eq_getElem index
  refine ⟨(state.canonical.take size)[i], ?_⟩
  rw [CanonicalChainSegment.hashAt, CanonicalChainSegment.canonicalAt]
  simp only [takenSegment, CanonicalChainSegment.blockAt, Nat.add_sub_cancel_left]
  rw [if_neg (by omega), if_neg (by omega), segmentBlocks_get, present]
  rfl

theorem FullCanonicalChain.getCanonicalImpl_of_hashAt {chain : FullCanonicalChain} {number segment hash}
    (found : chain.getChainSegment number = .ok segment) (canonical : segment.hashAt number = some hash) :
    chain.getCanonicalImpl number = .ok ⟨number, hash⟩ := by
  obtain ⟨_, isCursor, rfl⟩ := Option.map_eq_some_iff.mp canonical
  have answered := toOption_eq_some.mp isCursor
  obtain rfl := CanonicalChainSegment.canonicalAt_number answered
  rw [getCanonicalImpl, found]
  simp only [bind, Except.bind, answered, Outcome.changeContext]

/-- Below `first`, the chain store has the segments that readers look for. -/
structure World.Behind (options : IngestionServiceOptions) (first : Nat) (world : World) : Prop where
  starting : world.etcd.startingBlock = some (startingBlock options)
  tiled : Tiled (· ∈ world.store.segments) (startingBlock options) options.chainSegmentSize first

structure World.Stocked (options : IngestionServiceOptions) (world : World) : Prop where
  older : ∀ pointer, world.etcd.recent = some pointer → pointer.key < world.store.nextKey
  starting : ∀ block, world.etcd.startingBlock = some block → block = startingBlock options
  /-- Every segment has the blocks of its range. -/
  full : ∀ (start : Nat) (segment : CanonicalChainSegment), world.store.segments[start]? = some segment →
    ∀ number, start ≤ number → number < start + options.chainSegmentSize →
      ∃ hash, segment.hashAt number = some hash
  recent : ∀ (pointer : RecentSegmentPointer) (snapshot : CanonicalChainSegment),
    world.etcd.recent = some pointer → world.store.snapshots[pointer.key]? = some snapshot →
      world.Behind options snapshot.info.firstBlock.number

structure System.Stocked (system : System) : Prop where
  world : system.world.Stocked system.options
  builder : ∀ running, system.process = some running → ∀ chain, running.1.chainBuilder = .building chain →
    system.world.Behind system.options chain.info.firstBlock.number

namespace World

variable {options : IngestionServiceOptions} {world : World} {first : Nat}

section
variable (behind : world.Behind options first)
include behind

theorem Behind.plain {cause} {effect : Write} (isPlain : effect.Plain options cause) :
    (world.apply effect).Behind options first := by
  cases effect with
  | putStartingBlock => exact ⟨congrArg some isPlain, behind.tiled⟩
  | putFinalized | putPending => exact ⟨behind.starting, behind.tiled⟩
  | putRecent | deleteLegacyIngested | putSegment | putRecentSnapshot | deleteLegacyRecent => exact isPlain.elim

theorem Behind.plainAll {cause writes} (plain : ∀ write ∈ writes, write.Plain options cause) :
    (world.applyAll writes).Behind options first :=
  Effects.Always.all (.of_kept behind fun _ member _ before => Behind.plain before (plain _ member))

theorem Behind.putSegment (segment : CanonicalChainSegment) :
    (world.apply (.putSegment segment)).Behind options first := by
  refine ⟨behind.starting, behind.tiled.mono fun start present => ?_⟩
  exact Std.ExtTreeMap.mem_insert.mpr (.inr present)

end

theorem Behind.taken {chain : Building} (behind : world.Behind options chain.info.firstBlock.number)
    (lastHash nextHash : Hash) :
    (world.apply (.putSegment (chain.takenSegment options.chainSegmentSize lastHash))).Behind options
      (chain.remaining options.chainSegmentSize lastHash nextHash).info.firstBlock.number := by
  have kept := behind.putSegment (chain.takenSegment options.chainSegmentSize lastHash)
  exact ⟨kept.starting, kept.tiled.extend Std.ExtTreeMap.mem_insert_self⟩

theorem Behind.publish (behind : world.Behind options first) (segment : CanonicalChainSegment) :
    (world.applyAll (publishWrites world segment)).Behind options first :=
  ⟨behind.starting, behind.tiled⟩

namespace Stocked

variable (stocked : world.Stocked options)
include stocked

theorem plain {cause} {effect : Write} (isPlain : effect.Plain options cause) :
    (world.apply effect).Stocked options := by
  have behind : ∀ pointer snapshot, world.etcd.recent = some pointer →
      world.store.snapshots[pointer.key]? = some snapshot →
        (world.apply effect).Behind options snapshot.info.firstBlock.number :=
    fun pointer snapshot published stored => (stocked.recent pointer snapshot published stored).plain isPlain
  cases effect with
  | putStartingBlock =>
    refine ⟨stocked.older, ?_, stocked.full, behind⟩
    rintro block ⟨⟩
    exact isPlain
  | putFinalized | putPending => exact ⟨stocked.older, stocked.starting, stocked.full, behind⟩
  | putRecent | deleteLegacyIngested | putSegment | putRecentSnapshot | deleteLegacyRecent => exact isPlain.elim

theorem putSegment {chain : Building} {lastHash} (inside : options.chainSegmentSize ≤ chain.canonical.length) :
    (world.apply (.putSegment (chain.takenSegment options.chainSegmentSize lastHash))).Stocked options := by
  refine ⟨stocked.older, stocked.starting, fun start segment stored number lower upper => ?_, ?_⟩
  · simp only [World.apply, Std.ExtTreeMap.getElem?_insert, Std.compare_eq_iff_eq] at stored
    split_ifs at stored with same
    · cases stored
      subst same
      exact Building.takenSegment_hashAt_some inside lower upper
    · exact stocked.full start segment stored number lower upper
  · exact fun pointer snapshot published stored => (stocked.recent pointer snapshot published stored).putSegment _

theorem publish {segment : CanonicalChainSegment} (behind : world.Behind options segment.info.firstBlock.number) :
    Effects.Always World.apply (World.Stocked options) world (publishWrites world segment) := by
  have put : (world.apply (.putRecentSnapshot world.store.nextKey segment)).Stocked options := by
    refine ⟨fun pointer published => Nat.lt_succ_of_lt (stocked.older pointer published), stocked.starting,
      stocked.full, ?_⟩
    intro pointer snapshot published stored
    have older := stocked.older pointer published
    simp only [World.apply, Std.ExtTreeMap.getElem?_insert, Std.compare_eq_iff_eq] at stored
    rw [if_neg (by omega)] at stored
    have before := stocked.recent pointer snapshot published stored
    exact ⟨before.starting, before.tiled⟩
  refine .cons stocked (.cons put (.nil ⟨?_, stocked.starting, stocked.full, ?_⟩))
  · rintro pointer ⟨⟩
    exact Nat.lt_succ_self _
  · rintro pointer snapshot ⟨⟩ stored
    simp only [World.apply, Std.ExtTreeMap.getElem?_insert_self] at stored
    cases stored
    exact ⟨behind.starting, behind.tiled⟩

end Stocked

end World

namespace ChainEffect

variable {system : System} {event : Event} {tick : Tick (IngestionService × IngestionState)}

theorem behind (stocked : system.Stocked) (effect : ChainEffect system event tick) {after}
    (returned : tick.result = .ok after) {chain} (isChain : after.1.chainBuilder = .building chain) :
    (system.world.applyAll tick.writes).Behind system.options chain.info.firstBlock.number := by
  cases effect with
  | kept plain same =>
    obtain ⟨before, running, builder⟩ := same after returned
    exact (stocked.builder before running chain (builder.symm.trans isChain)).plainAll plain
  | started idle answered nothing fetched first builder =>
    cases returned
    cases builder.symm.trans isChain
    refine ⟨rfl, ?_⟩
    rw [show (Building.single _).info.firstBlock.number = _ from first]
    exact .nil _ _ _
  | restarted idle answered published stored wf builder =>
    cases returned
    cases builder.symm.trans isChain
    have behind := stocked.world.recent _ _ published stored
    exact ⟨behind.starting, behind.tiled⟩
  | appended running piped next allowed published builder =>
    cases returned
    cases builder.symm.trans isChain
    have behind := stocked.builder _ running _ piped.builder
    rcases published with rfl | rfl
    · exact behind
    · exact behind.publish _
  | @uploaded _ _ _ _ chain block _ _ running piped next allowed uploads builder =>
    cases returned
    cases builder.symm.trans isChain
    have behind : system.world.Behind system.options (chain.grown block).info.firstBlock.number :=
      stocked.builder _ running chain piped.builder
    exact (behind.taken _ _).publish _
  | recovered running chained canonical last builder =>
    cases returned
    cases builder.symm.trans isChain
    rw [Building.shrinkTo_first]
    exact (stocked.builder _ running _ chained.builder).publish _

theorem stocked (stocked : system.Stocked) (effect : ChainEffect system event tick) :
    Effects.Always World.apply (World.Stocked system.options) system.world tick.writes := by
  have before := stocked.world
  cases effect with
  | kept plain => exact .of_kept before (fun _ member _ known => known.plain (plain _ member))
  | started idle answered nothing fetched first =>
    have stored := before.plain (Write.plain_start answered system.options)
    have starting : Write.Plain system.options .stop (.putStartingBlock (startingBlock system.options)) := rfl
    refine .cons before (.cons stored ((stored.plain starting).publish ⟨rfl, ?_⟩))
    rw [Building.snapshot_info, show (Building.single _).info.firstBlock.number = _ from first]
    exact .nil _ _ _
  | restarted idle answered =>
    exact .cons before (.nil (before.plain (Write.plain_start answered system.options)))
  | appended running piped next allowed published =>
    rcases published with rfl | rfl
    · exact .nil before
    · have behind := stocked.builder _ running _ piped.builder
      exact before.publish behind
  | @uploaded _ _ _ _ chain block _ _ running piped next allowed uploads =>
    have behind : system.world.Behind system.options (chain.grown block).info.firstBlock.number :=
      stocked.builder _ running chain piped.builder
    exact .cons before ((before.putSegment uploads.inside.le).publish (behind.taken _ _))
  | recovered running chained =>
    refine before.publish ?_
    rw [Building.snapshot_info, Building.shrinkTo_first]
    exact stocked.builder _ running _ chained.builder

end ChainEffect

namespace System.Stocked

variable {system : System}

theorem fresh (options : IngestionServiceOptions) (supportsPending : Bool) :
    (System.fresh options supportsPending).Stocked :=
  ⟨⟨nofun, nofun, nofun, nofun⟩, nofun⟩

theorem finish (stocked : system.Stocked) {event tick} (effect : ChainEffect system event tick) (crash : Option Nat) :
    (system.finish crash tick).Stocked := by
  refine ⟨?_, fun running alive chain isChain => ?_⟩
  · rw [finish_options]
    exact finish_world (effect.stocked stocked)
  · obtain ⟨rfl, returned⟩ := finish_process alive
    rw [finish_options]
    exact effect.behind stocked returned isChain

/-- A reader of the published chain is answered for every block of it, with a
    hash that the stores hold. -/
theorem reads (stocked : system.Stocked) (ok : system.Ok) {chain} (reads : system.reader = some chain) :
    chain.startingBlock = startingBlock system.options ∧
      ∀ number, startingBlock system.options ≤ number → number ≤ chain.recent.info.lastBlock.number →
        ∃ hash, chain.getCanonicalImpl number = .ok ⟨number, hash⟩ := by
  obtain ⟨pointer, published, snapshot⟩ := Option.bind_eq_some_iff.mp reads
  obtain ⟨recent, stored, rfl⟩ := Option.map_eq_some_iff.mp snapshot
  obtain ⟨building, wf, isSnapshot, -⟩ := ok.store.recent pointer published
  cases stored.symm.trans isSnapshot
  have behind := stocked.world.recent pointer _ published stored
  have starting : system.world.etcd.startingBlock.getD 0 = startingBlock system.options := by
    rw [behind.starting]
    rfl
  refine ⟨starting, fun number lower upper => ?_⟩
  by_cases inside : building.info.firstBlock.number ≤ number
  · obtain ⟨hash, canonical⟩ := wf.hashAt_some inside upper
    refine ⟨hash, FullCanonicalChain.getCanonicalImpl_of_hashAt (if_pos inside) ?_⟩
    rw [Building.snapshot_hashAt wf, canonical]
  · have present := behind.tiled.present_of_lt lower (not_le.mp inside)
    rw [Std.ExtTreeMap.mem_iff_isSome_getElem?, Option.isSome_iff_exists] at present
    obtain ⟨segment, found⟩ := present
    have positive := behind.tiled.size_pos lower (not_le.mp inside)
    have floor := Nat.div_mul_le_self (number - startingBlock system.options) system.options.chainSegmentSize
    have ceiling := Nat.lt_div_mul_add positive (a := number - startingBlock system.options)
    obtain ⟨hash, canonical⟩ := stocked.world.full _ segment found number (by omega) (by omega)
    refine ⟨hash, FullCanonicalChain.getCanonicalImpl_of_hashAt ?_ canonical⟩
    have older : ¬ building.snapshot.info.firstBlock.number ≤ number := inside
    have named : chainSegmentStart number (startingBlock system.options) system.options.chainSegmentSize = .ok _ :=
      if_neg (by omega)
    rw [FullCanonicalChain.getChainSegment, if_neg older]
    rw [Nat.add_comm] at found
    simp only [starting, named, found, bind, Except.bind]

end System.Stocked

end Starkstream
