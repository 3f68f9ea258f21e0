import Starkstream.Compaction.Pruning
import Starkstream.Compaction.Readable

/-! # Block numbers with more than ten digits

The prefix that the prune service lists for a block of ten digits is also a prefix of
the keys of longer block numbers.  A chain that gets that long loses the objects of
its newest blocks while the first ones are pruned.
-/

namespace Starkstream

open CanonicalChainBuilder IngestionService FirstGroups BlockStore

/-! ## Ingestion of finalized blocks -/

/-- Ingestion has the blocks up to `number`, and waits for the next one. -/
structure Awaits (top number : Nat) (service : IngestionService) (state : IngestState) (chain : Building) :
    Prop where
  builder : service.chainBuilder = .building chain
  last : chain.info.lastBlock = cursor number
  room : chain.canonical.length + (top - number) < service.options.chainSegmentSize
  single : service.options.maxConcurrentTasks = 1
  queue : service.taskQueue = [.main (number + 1)]
  queued : state.queuedBlockNumber = number + 1
  head : state.head.number = top
  finalized : state.finalized.number = top

def ingested (number : Nat) : Event := .taskResult (.finished (.ok (.main (blockInfo number))))

namespace Awaits

variable {top number : Nat} {service : IngestionService} {state : IngestState} {chain : Building}

variable (awaits : Awaits top number service state chain)
include awaits

theorem allowed : canGrow (.building chain) (blockInfo (number + 1)) = true := by
  simp [canGrow, awaits.last, cursor, blockInfo]

theorem plan (below : number < top) {system : System} (alive : system.process = some (service, .ingest state)) :
    system.plan (ingested (number + 1)) =
      some ⟨appendWrites system.world state (blockInfo (number + 1)) (chain.grown (blockInfo (number + 1))),
        .ok ((withChain { service with taskQueue := [] } (chain.grown (blockInfo (number + 1)))).resumeIngestion state
          (cursor (number + 1)))⟩ := by
  have short : (chain.grown (blockInfo (number + 1))).canonical.length <
      service.options.chainSegmentSize + service.options.chainSegmentUploadOffsetSize := by
    have room := awaits.room
    simp only [Building.grown, List.length_append, List.length_singleton]
    omega
  have accepted : QueuedTask.accepts (.main (number + 1)) (.finished (.ok (.main (blockInfo (number + 1))))) = true :=
    decide_eq_true rfl
  have ingests := ingestBlock_of_short system.world { service with taskQueue := [] } state awaits.builder
    awaits.allowed short
  simp only [System.plan, ingested, alive, awaits.queue, accepted, if_true, tickWithTaskResult, ingests]
  rfl

theorem resumed (below : number + 1 < top) :
    ∃ nextService nextState,
      (withChain { service with taskQueue := [] } (chain.grown (blockInfo (number + 1)))).resumeIngestion state
          (cursor (number + 1)) = (nextService, .ingest nextState) ∧
        Awaits top (number + 1) nextService nextState (chain.grown (blockInfo (number + 1))) := by
  refine ⟨_, _, resumeIngestion_eq _ _ _, ?_⟩
  have count : pushCount (withChain { service with taskQueue := [] } (chain.grown (blockInfo (number + 1))))
      state.head.number state.queuedBlockNumber = 1 := by
    have single := awaits.single
    have head := awaits.head
    have queued := awaits.queued
    simp only [pushCount, withChain, List.length_nil]
    omega
  have room := awaits.room
  refine ⟨rfl, rfl, ?_, awaits.single, ?_, ?_, awaits.head, awaits.finalized⟩
  · simp only [pushed, withChain, Building.grown, List.length_append, List.length_singleton]
    omega
  · simp only [pushed, count]
    simp only [awaits.queued]
    rfl
  · simp only [count]
    rw [awaits.queued]

end Awaits

theorem System.reader_published (system : System) (segment : CanonicalChainSegment)
    (process : Option (IngestionService × IngestionState)) :
    System.reader { system with world := system.world.applyAll (publishWrites system.world segment), process } = some
      { store := fun start => .ok system.world.store.segments[start]?
        startingBlock := system.world.etcd.startingBlock.getD 0
        chainSegmentSize := system.options.chainSegmentSize
        recent := segment } := by
  simp only [System.reader, publishWrites, World.applyAll_cons, World.applyAll_nil, World.apply, Option.bind_some,
    Std.ExtTreeMap.getElem?_insert_self, Option.map_some]

variable {cluster : Cluster}

namespace Cluster

variable {top number : Nat}

/-- Ingestion in the cluster, which holds blocks without data. -/
structure CatchesUp (top number : Nat) (cluster : Cluster) : Prop where
  idle : cluster.running = none
  noData : cluster.archive.fragmentInfo = []
  awaits : ∃ service state chain, cluster.system.process = some (service, .ingest state) ∧
    Awaits top number service state chain

/-- What ingestion changes while it publishes nothing. -/
def Ahead (cluster after : Cluster) : Prop :=
  ∃ process running store uploads,
    after = { cluster with
      system := { cluster.system with process }
      running
      archive := { cluster.archive with store, uploads } }

theorem Ahead.trans {first second third : Cluster} (earlier : first.Ahead second) (later : second.Ahead third) :
    first.Ahead third := by
  obtain ⟨_, _, _, _, rfl⟩ := earlier
  obtain ⟨process, running, store, uploads, rfl⟩ := later
  exact ⟨process, running, store, uploads, rfl⟩

variable {tick : Tick (IngestionService × IngestionState)}

theorem run_arrival (idle : cluster.running = none) (noData : cluster.archive.fragmentInfo = [])
    (planned : cluster.system.plan (ingested number) = some tick) :
    Runs.run step cluster (arrival number) = some
      { cluster with
        running := some ⟨ingested number, tick, 0⟩
        archive := cluster.archive.upload (cursor number) block } := by
  have uploaded : step cluster (.upload (cursor number) block) =
      some { cluster with archive := cluster.archive.upload (cursor number) block } := by
    refine if_pos ?_
    rw [noData]
    rfl
  have begins : ingest { cluster with archive := cluster.archive.upload (cursor number) block } (ingested number) =
      some { cluster with
        running := some ⟨ingested number, tick, 0⟩
        archive := cluster.archive.upload (cursor number) block } := by
    simp only [ingest, idle, planned, Option.map_some]
  rw [arrival, Runs.run_cons, uploaded, Option.bind_some, Runs.run_cons]
  exact Option.bind_eq_some_iff.mpr ⟨_, begins, rfl⟩

theorem run_writes {event done left} (isRunning : cluster.running = some ⟨event, tick, done⟩)
    (uploaded : cluster.offeredUploaded event = true) (remaining : done + left = tick.writes.length) :
    Runs.run step cluster (List.replicate left .write ++ [.complete]) = some
      { cluster with system := cluster.system.finish none tick, running := none } := by
  induction left generalizing cluster done with
  | zero =>
    refine Option.bind_eq_some_iff.mpr ⟨_, ?_, rfl⟩
    simp only [step, complete, isRunning]
    exact if_pos ⟨remaining, uploaded⟩
  | succ left ih =>
    obtain ⟨effect, isNext⟩ : ∃ effect, tick.writes[done]? = some effect :=
      ⟨_, List.getElem?_eq_getElem (by omega)⟩
    have writes : step cluster .write = some { cluster with running := some ⟨event, tick, done + 1⟩ } := by
      simp only [step, write, isRunning, isNext, uploaded, Bool.true_eq_false, and_false, if_false]
    rw [List.replicate_succ, List.cons_append, Runs.run_cons, writes, Option.bind_some]
    exact ih rfl uploaded (by omega)

theorem run_ingested (idle : cluster.running = none) (noData : cluster.archive.fragmentInfo = [])
    (planned : cluster.system.plan (ingested number) = some tick) :
    Runs.run step cluster (arrival number ++ (List.replicate tick.writes.length .write ++ [.complete])) = some
      { cluster with
        system := cluster.system.finish none tick
        running := none
        archive := cluster.archive.upload (cursor number) block } := by
  refine Runs.run_concat (run_arrival idle noData planned) ?_
  refine run_writes rfl ?_ (Nat.zero_add tick.writes.length)
  exact decide_eq_true (List.mem_append_right _ List.mem_cons_self)

theorem CatchesUp.next (catches : CatchesUp top number cluster) (below : number + 1 < top) :
    ∃ after, Runs.run step cluster (arrival (number + 1) ++ [.complete]) = some after ∧
      CatchesUp top (number + 1) after ∧ cluster.Ahead after := by
  obtain ⟨_, state, chain, alive, awaits⟩ := catches.awaits
  obtain ⟨nextService, nextState, resumes, nextAwaits⟩ := awaits.resumed below
  have planned := awaits.plan (Nat.lt_of_succ_lt below) alive
  have silent : appendWrites cluster.system.world state (blockInfo (number + 1))
      (chain.grown (blockInfo (number + 1))) = [] := by
    refine if_neg (not_le.mpr ?_)
    rw [awaits.finalized]
    exact below
  rw [silent, resumes] at planned
  refine ⟨_, run_ingested catches.idle catches.noData planned,
    ⟨rfl, catches.noData, nextService, nextState, _, rfl, nextAwaits⟩, _, _, _, _, rfl⟩

/-- The inputs that bring ingestion from `number` to `number + count`. -/
def catchUp (number count : Nat) : List ClusterInput :=
  (List.range' (number + 1) count).flatMap fun next => arrival next ++ [.complete]

theorem CatchesUp.run (count : Nat) (catches : CatchesUp top number cluster) (below : number + count < top) :
    ∃ after, Runs.run step cluster (catchUp number count) = some after ∧
      CatchesUp top (number + count) after ∧ cluster.Ahead after := by
  induction count generalizing cluster number with
  | zero => exact ⟨cluster, rfl, catches, _, _, _, _, rfl⟩
  | succ count ih =>
    obtain ⟨_, first, nextCatches, ahead⟩ := catches.next (by omega)
    obtain ⟨after, later, afterCatches, further⟩ := ih nextCatches (by omega)
    refine ⟨after, Runs.run_concat first later, ?_, ahead.trans further⟩
    rwa [Nat.add_right_comm] at afterCatches

/-- The first block that is not below the finalized one is published. -/
theorem CatchesUp.publish (catches : CatchesUp (number + 1) number cluster) :
    ∃ after, Runs.run step cluster (published (number + 1)) = some after ∧ after.running = none ∧
      after.system.options = cluster.system.options ∧
      after.system.world.etcd.startingBlock = cluster.system.world.etcd.startingBlock ∧
      (∃ canonical, after.system.reader = some canonical ∧ canonical.getHead = cursor (number + 1)) ∧
      after.prune = cluster.prune ∧
      ∃ store uploads, after.archive = { cluster.archive with store, uploads } := by
  obtain ⟨_, state, chain, alive, awaits⟩ := catches.awaits
  have planned := awaits.plan (Nat.lt_succ_self number) alive
  have writes : appendWrites cluster.system.world state (blockInfo (number + 1))
      (chain.grown (blockInfo (number + 1))) =
        publishWrites cluster.system.world (chain.grown (blockInfo (number + 1))).snapshot := by
    refine if_pos ?_
    rw [awaits.finalized]
    exact le_rfl
  rw [writes] at planned
  exact ⟨_, run_ingested catches.idle catches.noData planned, rfl, rfl, rfl,
    ⟨_, System.reader_published cluster.system _ _, rfl⟩, rfl, _, _, rfl⟩

theorem run_deleting {view} (notAhead : cluster.NotAhead view) {grouped current left keys}
    (isDeleting : cluster.prune = .deleting grouped current left keys) :
    Runs.Meets step Sees cluster (List.replicate keys.length (.prune view)) ∧
      Runs.run step cluster (List.replicate keys.length (.prune view)) = some
        { cluster with
          archive := { cluster.archive with store := cluster.archive.store.eraseAll keys }
          prune := .deleting grouped current left [] } := by
  induction keys generalizing cluster with
  | nil =>
    rw [← isDeleting]
    exact ⟨trivial, rfl⟩
  | cons key keys ih =>
    have deletes : step cluster (.prune view) = some
        { cluster with
          archive := cluster.archive.delete key
          prune := .deleting grouped current left keys } := by
      simp only [step, isDeleting]
      rfl
    have still : NotAhead
        { cluster with
          archive := cluster.archive.delete key
          prune := .deleting grouped current left keys } view :=
      ⟨notAhead.starting, notAhead.segmented, notAhead.grouped⟩
    obtain ⟨meets, runs⟩ := ih still rfl
    refine ⟨.cons notAhead deletes meets, ?_⟩
    rw [List.length_cons, List.replicate_succ, Runs.run_cons, deletes, Option.bind_some]
    exact runs

theorem run_round {view} (notAhead : cluster.NotAhead view) {grouped current}
    (isRound : cluster.prune = .round grouped current 1) (inside : current ≤ grouped) :
    ∃ inputs, Runs.Meets step Sees cluster inputs ∧ Runs.run step cluster inputs = some
      { cluster with
        archive := { cluster.archive with store := cluster.archive.store.eraseAll (cluster.archive.store.list current) }
        prune := .deleting grouped current 1 [] } := by
  have lists : step cluster (.prune view) = some
      { cluster with prune := .deleting grouped current 1 (cluster.archive.store.list current) } := by
    have notOver : ¬ (1 = 0 ∨ grouped < current) := by omega
    simp only [step, isRound, PruneStage.step, if_neg notOver]
  have still : NotAhead
      { cluster with prune := .deleting grouped current 1 (cluster.archive.store.list current) } view :=
    ⟨notAhead.starting, notAhead.segmented, notAhead.grouped⟩
  obtain ⟨meets, runs⟩ := run_deleting still rfl
  refine ⟨.prune view :: List.replicate (cluster.archive.store.list current).length (.prune view),
    .cons notAhead lists meets, ?_⟩
  rw [Runs.run_cons, lists, Option.bind_some, runs]

end Cluster

/-! ## The whole run -/

theorem FullCanonicalChain.number_of_getCanonical {canonical : FullCanonicalChain} {number cursor}
    (answered : canonical.getCanonical number = .ok (.canonical cursor)) : cursor.number = number := by
  unfold FullCanonicalChain.getCanonical at answered
  split_ifs at answered
  · cases answered
  · obtain ⟨_, -, same⟩ := bind_eq_ok.mp answered
    cases same
  · obtain ⟨_, looked, same⟩ := bind_eq_ok.mp answered
    cases same
    obtain ⟨_, -, known⟩ := bind_eq_ok.mp looked
    exact CanonicalChainSegment.canonicalAt_number (Outcome.changeContext_eq_ok.mp known)

theorem Cluster.not_readable_of_deleted {canonical number} (idle : cluster.running = none)
    (reads : cluster.system.reader = some canonical) (isStart : startingBlock cluster.system.options ≤ number)
    (isPublished : number ≤ canonical.getHead.number)
    (notSegmented : ∀ segmented, cluster.archive.segmented.value = some segmented → segmented < number)
    (deleted : ∀ hash, formatBlockKey ⟨number, hash⟩ ∉ cluster.archive.store) : ¬ cluster.Readable := by
  intro readable
  have visible : cluster.visible = cluster.system := by
    rw [Cluster.visible, idle]
  have isView : cluster.currentView = some (.new (cluster.visible.world.etcd.finalized.getD 0)
      cluster.archive.segmented.value cluster.archive.grouped.value cluster.archive.options.segmentSize
      cluster.archive.options.groupSize canonical) := by
    rw [Cluster.currentView, visible, reads]
    rfl
  have finds := readable.finds _ isView number isStart isPublished
  obtain ⟨⟨_, hash⟩, answered, _, found⟩ := finds.block notSegmented
  obtain rfl := FullCanonicalChain.number_of_getCanonical answered
  have absent := AList.lookup_eq_none.mpr (deleted hash)
  rw [ObjectStore.getBlock, absent] at found
  cases found

namespace Cluster

/-- The finalized block moves up, and the head with it. -/
def farHead (top : Nat) : List ClusterInput :=
  [.ingest (.refreshFinalized (.ok (cursor top))), .write, .complete, .ingest (.refreshHead (cursor top)), .complete]

theorem sees_published (number : Nat) : Runs.Meets step Sees cluster (published number) := by
  refine .of_forall fun input member cluster => ?_
  simp only [published, arrival, List.cons_append, List.nil_append, List.mem_cons, List.not_mem_nil, or_false] at member
  rcases member with rfl | rfl | rfl | rfl | rfl <;> trivial

theorem sees_catchUp (number count : Nat) : Runs.Meets step Sees cluster (catchUp number count) := by
  refine .of_forall fun input member cluster => ?_
  obtain ⟨_, -, member⟩ := List.mem_flatMap.mp member
  simp only [arrival, List.cons_append, List.nil_append, List.mem_cons, List.not_mem_nil, or_false] at member
  rcases member with rfl | rfl | rfl <;> trivial

/-- The head and the finalized block are far ahead when the first block is about to be
    pruned. -/
theorem farHead_reached :
    ∃ middle, Runs.run step (FirstGroups.fresh (10 ^ 9)) (FirstGroups.inputs (10 ^ 9) ++ farHead (10 ^ 10)) = some middle ∧
      CatchesUp (10 ^ 10) (10 ^ 9 + 3) middle ∧
      middle.prune = .round (10 ^ 9 + 1) (10 ^ 9) 1 ∧
      middle.system.options = FirstGroups.options (10 ^ 9) ∧
      middle.system.world.etcd.startingBlock = some (10 ^ 9) ∧
      middle.archive.segmented.values = [10 ^ 9 + 2, 10 ^ 9 + 1, 10 ^ 9] ∧
      middle.archive.grouped.values = [10 ^ 9 + 1, 10 ^ 9] :=
  ⟨_, rfl, ⟨rfl, rfl, _, _, _, rfl, ⟨rfl, rfl, by decide, rfl, rfl, rfl, rfl, rfl⟩⟩, rfl, rfl, rfl, rfl, rfl⟩

/-- The chain has blocks `10 ^ 9` to `10 ^ 10`.  When the first one is pruned, the
    object of the last one is deleted too, and nothing else has that block. -/
theorem not_readable_eleven_digits :
    ∃ inputs last, Runs.Meets step Sees (FirstGroups.fresh (10 ^ 9)) inputs ∧
      Runs.run step (FirstGroups.fresh (10 ^ 9)) inputs = some last ∧ ¬ last.Readable := by
  obtain ⟨middle, reached, catches, isRound, options, starts, segmented, grouped⟩ := farHead_reached
  have sees : Runs.Meets step Sees (FirstGroups.fresh (10 ^ 9)) (FirstGroups.inputs (10 ^ 9) ++ farHead (10 ^ 10)) :=
    .of_checks sees_of_check rfl
  obtain ⟨count, isTop⟩ : ∃ count, 10 ^ 9 + 3 + count + 1 = 10 ^ 10 := ⟨8999999996, by norm_num⟩
  rw [← isTop] at catches
  obtain ⟨behind, climbs, nearTop, ahead⟩ := catches.run count (Nat.lt_succ_self _)
  obtain ⟨_, _, _, _, rfl⟩ := ahead
  obtain ⟨full, publishes, idle, sameOptions, sameStart, ⟨canonical, reads, head⟩, samePrune, store, uploads, archive⟩ :=
    nearTop.publish
  rw [isTop] at publishes head
  have notAhead : full.NotAhead (lastView (10 ^ 9)) := by
    refine ⟨?_, ?_, ?_⟩
    · rw [visible, idle]
      exact sameStart.trans starts
    · rintro _ ⟨⟩
      simp [archive, segmented]
    · rintro _ ⟨⟩
      simp [archive, grouped]
  obtain ⟨deletes, seesDeletes, deleted⟩ := run_round notAhead (samePrune.trans isRound) (Nat.le_succ _)
  refine ⟨_, _, sees.concat reached ((sees_catchUp _ _).concat climbs ((sees_published _).concat publishes seesDeletes)),
    Runs.run_concat reached (Runs.run_concat climbs (Runs.run_concat publishes deleted)), ?_⟩
  have isTopNumber : canonical.getHead.number = 10 ^ 10 := congrArg Cursor.number head
  refine not_readable_of_deleted idle reads ?_ isTopNumber.ge ?_ fun hash present => ?_
  · rw [sameOptions, options]
    decide
  · intro block isBlock
    simp only [archive, HighWater.value, segmented, List.head?_cons, Option.some.injEq] at isBlock
    subst isBlock
    decide
  · have listed : isListed (10 ^ 9) (formatBlockKey ⟨10 ^ 10, hash⟩) = true :=
      isListed_of_longer le_rfl (by decide : 0 < 10) hash.display
    rw [(ObjectStore.mem_eraseAll_list.mp present).2] at listed
    cases listed

end Cluster

end Starkstream
