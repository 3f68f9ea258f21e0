import Starkstream.Compaction.Services

/-! # Every published block stays readable

A block of the published chain is in the segment that readers compute for it, or
its own object is still there.  This holds at every crash point of the four
services, while the block numbers have no more digits than the keys are padded to.
-/

namespace Starkstream

open IngestionService

namespace Cluster

variable (cluster : Cluster)

def currentView : Option ChainView :=
  cluster.visible.reader.map fun canonical =>
    .new (cluster.visible.world.etcd.finalized.getD 0) cluster.archive.segmented.value cluster.archive.grouped.value
      cluster.archive.options.segmentSize cluster.archive.options.groupSize canonical

/-- Every object of the segment that begins at `first` has the block at its offset. -/
def InSegment (first number : Nat) : Prop :=
  ∀ name ∈ segmentNames cluster.archive.fragmentInfo, ∃ data, cluster.archive.store.getSegment first name = some data ∧
    (data.cursors[number - first]?).map (·.number) = some number

/-- Readers find block `number`. -/
structure Finds (view : ChainView) (number : Nat) : Prop where
  segment : ∀ segmented, view.segmented = some segmented → number ≤ segmented →
    ∃ first, view.getSegmentStartBlock number = .ok first ∧ cluster.InSegment first number
  block : (∀ segmented, view.segmented = some segmented → segmented < number) →
    ∃ cursor, view.canonical.getCanonical number = .ok (.canonical cursor) ∧
      ∃ block, cluster.archive.store.getBlock cursor = some block
  group : ∀ grouped, view.grouped = some grouped → number ≤ grouped →
    ∃ first, view.getGroupStartBlock number = .ok first ∧
      ∃ group, cluster.archive.store.getGroup first = some group

structure Readable : Prop where
  segmented : ∀ block, cluster.archive.segmented.value = some block → ∃ count, 0 < count ∧
    block + 1 = startingBlock cluster.system.options + count * cluster.archive.options.segmentSize
  grouped : ∀ block, cluster.archive.grouped.value = some block →
    (∃ count, 0 < count ∧
      block + 1 = startingBlock cluster.system.options + count * cluster.archive.options.blocksInGroup) ∧
    ∃ segmented, cluster.archive.segmented.value = some segmented ∧ block < segmented
  finds : ∀ view, cluster.currentView = some view → ∀ number, startingBlock cluster.system.options ≤ number →
    number ≤ view.canonical.getHead.number → cluster.Finds view number

/-- The view has values that were stored. -/
structure NotAhead (view : ChainView) : Prop where
  starting : cluster.visible.world.etcd.startingBlock = some view.canonical.startingBlock
  segmented : ∀ block, view.segmented = some block → block ∈ cluster.archive.segmented.values
  grouped : ∀ block, view.grouped = some block → block ∈ cluster.archive.grouped.values

def Sees : ClusterInput → Prop
  | .segment view | .group view | .prune view => cluster.NotAhead view
  | _ => True

end Cluster

/-- The numbers of uploaded blocks have at most ten digits. -/
def ClusterInput.Short : ClusterInput → Prop
  | .upload cursor _ => cursor.number < 10 ^ 10
  | _ => True

instance : DecidablePred ClusterInput.Short := fun input => by
  unfold ClusterInput.Short
  split <;> infer_instance

/-! ## Ingestion -/

variable {event : Event}

theorem Event.offered_of_offers {options block} (offers : event.Offers options block) :
    event.offered options = some block := by
  unfold Event.Offers at offers
  split at offers
  · rw [Event.offered, offers]
    rfl
  · rw [Event.offered, offers]
  · exact offers.elim

theorem World.applyAll_quiet (world : World) {writes} (quiet : ∀ write ∈ writes, write.ofChain = false) :
    (world.applyAll writes).etcd.recent = world.etcd.recent ∧
      (world.applyAll writes).store.segments = world.store.segments ∧
      (world.applyAll writes).store.snapshots = world.store.snapshots := by
  induction writes generalizing world with
  | nil => exact ⟨rfl, rfl, rfl⟩
  | cons write rest ih =>
    obtain ⟨recent, segments, snapshots⟩ :=
      ih (world.apply write) fun other member => quiet other (List.mem_cons_of_mem _ member)
    have isQuiet := quiet write List.mem_cons_self
    rw [World.applyAll_cons, recent, segments, snapshots]
    cases write with
    | putStartingBlock | putFinalized | putPending | deleteLegacyIngested | deleteLegacyRecent =>
      exact ⟨rfl, rfl, rfl⟩
    | putRecent | putSegment | putRecentSnapshot => cases isQuiet

/-- What ingestion holds was uploaded. -/
structure Ingesting (system : System) (running : Option RunningEvent) (uploads : List Cursor) : Prop where
  ok : system.Ok
  stocked : system.Stocked
  held : ∀ hashes, Held system hashes → ∀ number hash, hashes number = some hash → ⟨number, hash⟩ ∈ uploads
  planned : ∀ event, running = some event → system.plan event.event = some event.tick
  offered : ∀ event, running = some event →
    (∃ write ∈ event.tick.writes.take event.done, write.ofChain = true) →
      ∀ block, event.event.Offers system.options block → block.cursor ∈ uploads

variable {hashes : Nat → Option Hash}

namespace Ingesting

variable {system : System} {running : Option RunningEvent} {uploads : List Cursor}

theorem idle (ok : system.Ok) (stocked : system.Stocked)
    (held : ∀ hashes, Held system hashes → ∀ number hash, hashes number = some hash → ⟨number, hash⟩ ∈ uploads) :
    Ingesting system none uploads :=
  ⟨ok, stocked, held, fun _ isRunning => (by cases isRunning), fun _ isRunning => (by cases isRunning)⟩

variable (ingesting : Ingesting system running uploads)
include ingesting

theorem mono {more} (sub : uploads ⊆ more) : Ingesting system running more where
  ok := ingesting.ok
  stocked := ingesting.stocked
  held hashes held number hash found := sub (ingesting.held hashes held number hash found)
  planned := ingesting.planned
  offered event isRunning stores block offers := sub (ingesting.offered event isRunning stores block offers)

variable {tick : Tick (IngestionService × IngestionState)}

theorem held_finish (planned : system.plan event = some tick) {crash}
    (offered : ∀ block, event.Offers system.options block → block.cursor ∈ uploads)
    (held : Held (system.finish crash tick) hashes) {number hash} (found : hashes number = some hash) :
    ⟨number, hash⟩ ∈ uploads := by
  rcases (ingesting.ok.transition planned).chainEffect.held ingesting.ok held number hash found with
    ⟨before, heldBefore, foundBefore⟩ | ⟨block, offers, rfl, rfl⟩
  · exact ingesting.held before heldBefore number hash foundBefore
  · exact offered block offers

theorem ok_finish (planned : system.plan event = some tick) (crash : Option Nat) :
    (system.finish crash tick).Ok ∧ (system.finish crash tick).Stocked := by
  have stepped : system.step ⟨event, crash⟩ = some (system.finish crash tick) :=
    Option.map_eq_some_iff.mpr ⟨tick, planned, rfl⟩
  exact ⟨ingesting.ok.step stepped,
    ingesting.stocked.finish (ingesting.ok.transition planned).chainEffect crash⟩

theorem held_midway {event} (isRunning : running = some event)
    (held : Held (system.finish (some event.done) event.tick) hashes) {number hash} (found : hashes number = some hash) :
    ⟨number, hash⟩ ∈ uploads := by
  by_cases stores : ∃ write ∈ event.tick.writes.take event.done, write.ofChain = true
  · exact ingesting.held_finish (ingesting.planned event isRunning) (ingesting.offered event isRunning stores) held found
  · have quiet : ∀ write ∈ event.tick.writes.take event.done, write.ofChain = false := by
      intro write member
      cases chain : write.ofChain with
      | false => rfl
      | true => exact absurd ⟨write, member, chain⟩ stores
    obtain ⟨recent, segments, snapshots⟩ := World.applyAll_quiet system.world quiet
    cases held with
    | builder alive => cases alive
    | recent published stored =>
      simp only [System.finish, recent, snapshots] at published stored
      exact ingesting.held _ (.recent published stored) number hash found
    | stored stored =>
      simp only [System.finish, segments] at stored
      exact ingesting.held _ (.stored stored) number hash found

end Ingesting

namespace Cluster

variable {cluster after : Cluster}

structure Sound (cluster : Cluster) : Prop where
  ingesting : Ingesting cluster.system cluster.running cluster.archive.uploads
  archive : cluster.archive.Sound (startingBlock cluster.system.options)
  segment : cluster.segment.Placed (startingBlock cluster.system.options) cluster.archive
  group : cluster.group.Placed (startingBlock cluster.system.options) cluster.archive
  prune : cluster.prune.Placed cluster.archive

/-! ## What readers see -/

theorem visible_options (cluster : Cluster) : cluster.visible.options = cluster.system.options := by
  unfold visible
  cases cluster.running with
  | none => rfl
  | some => exact System.finish_options _ _ _

theorem Sound.visible_ok (sound : cluster.Sound) : cluster.visible.Ok ∧ cluster.visible.Stocked := by
  unfold visible
  cases isRunning : cluster.running with
  | none => exact ⟨sound.ingesting.ok, sound.ingesting.stocked⟩
  | some event => exact sound.ingesting.ok_finish (sound.ingesting.planned event isRunning) _

variable {number : Nat}

theorem Sound.visible_held (sound : cluster.Sound) (held : Held cluster.visible hashes) {hash}
    (found : hashes number = some hash) : ⟨number, hash⟩ ∈ cluster.archive.uploads := by
  unfold visible at held
  cases isRunning : cluster.running with
  | none =>
    rw [isRunning] at held
    exact sound.ingesting.held hashes held number hash found
  | some =>
    rw [isRunning] at held
    exact sound.ingesting.held_midway isRunning held found

theorem Sound.shown (sound : cluster.Sound) {view} (notAhead : cluster.NotAhead view) :
    cluster.archive.Shown (startingBlock cluster.system.options) view := by
  refine ⟨?_, notAhead.segmented, notAhead.grouped⟩
  rw [← visible_options]
  exact sound.visible_ok.2.world.starting _ notAhead.starting

/-! ## Steps -/

theorem Sound.upload (sound : cluster.Sound) {cursor : Cursor} {block} (short : cursor.number < 10 ^ 10)
    (stepped : cluster.step (.upload cursor block) = some after) : after.Sound := by
  simp only [step] at stepped
  split_ifs at stepped with provides
  cases stepped
  have grows := cluster.archive.upload_grows cursor block
  refine ⟨sound.ingesting.mono (List.subset_append_left _ _), sound.archive.upload short provides,
    grows.segmentStage sound.segment, grows.groupStage sound.group, grows.pruneStage sound.prune⟩

theorem Sound.ofIngestion (sound : cluster.Sound) {system running}
    (ingesting : Ingesting system running cluster.archive.uploads)
    (sameOptions : system.options = cluster.system.options) : Sound { cluster with system, running } := by
  refine ⟨ingesting, ?_, ?_, ?_, sound.prune⟩
  · rw [sameOptions]
    exact sound.archive
  · rw [sameOptions]
    exact sound.segment
  · rw [sameOptions]
    exact sound.group

theorem Sound.ingest (sound : cluster.Sound) (stepped : cluster.ingest event = some after) : after.Sound := by
  unfold Cluster.ingest at stepped
  split at stepped
  · cases stepped
  · obtain ⟨_, planned, rfl⟩ := Option.map_eq_some_iff.mp stepped
    have ingesting := sound.ingesting
    refine sound.ofIngestion ⟨ingesting.ok, ingesting.stocked, ingesting.held, ?_, ?_⟩ rfl
    · rintro _ ⟨⟩
      exact planned
    · rintro _ ⟨⟩ ⟨_, none, -⟩
      cases none

theorem offers_uploaded (uploaded : cluster.offeredUploaded event = true) (block : BlockInfo)
    (offers : event.Offers cluster.system.options block) : block.cursor ∈ cluster.archive.uploads := by
  rw [offeredUploaded, Event.offered_of_offers offers, Option.all_some] at uploaded
  exact of_decide_eq_true uploaded

section
variable (sound : cluster.Sound)
include sound

theorem Sound.write (stepped : cluster.write = some after) : after.Sound := by
  unfold Cluster.write at stepped
  split at stepped
  · cases stepped
  case _ event isRunning =>
    split at stepped
    · cases stepped
    case _ effect isNext =>
      split_ifs at stepped with early
      cases stepped
      have ingesting := sound.ingesting
      refine sound.ofIngestion ⟨ingesting.ok, ingesting.stocked, ingesting.held, ?_, ?_⟩ rfl
      · rintro _ ⟨⟩
        exact ingesting.planned event isRunning
      · rintro _ ⟨⟩ ⟨write, member, ofChain⟩
        rw [List.take_add_one, isNext] at member
        rcases List.mem_append.mp member with earlier | isEffect
        · exact ingesting.offered event isRunning ⟨write, earlier, ofChain⟩
        · obtain rfl := List.mem_singleton.mp isEffect
          exact offers_uploaded (by simpa [ofChain] using early)

theorem Sound.complete (stepped : cluster.complete = some after) : after.Sound := by
  unfold Cluster.complete at stepped
  split at stepped
  · cases stepped
  case _ event isRunning =>
    split_ifs at stepped with ends
    cases stepped
    have ingesting := sound.ingesting
    have planned := ingesting.planned event isRunning
    obtain ⟨ok, stocked⟩ := ingesting.ok_finish planned none
    refine sound.ofIngestion (.idle ok stocked fun hashes held number hash found => ?_) (System.finish_options _ _ _)
    exact ingesting.held_finish planned (offers_uploaded ends.2) held found

theorem Sound.crash : cluster.crash.Sound := by
  obtain ⟨ok, stocked⟩ := sound.visible_ok
  refine sound.ofIngestion (.idle ?_ ?_ fun hashes held number hash found => ?_) cluster.visible_options
  · exact ⟨ok.store, fun _ alive => (by cases alive), fun _ alive => (by cases alive)⟩
  · exact ⟨stocked.world, fun _ alive => by cases alive⟩
  refine sound.visible_held ?_ found
  cases held with
  | builder alive => cases alive
  | recent published stored => exact .recent published stored
  | stored stored => exact .stored stored

theorem Sound.ofCompaction {archive} (steps : cluster.archive.Steps (startingBlock cluster.system.options) archive)
    {segment : SegmentStage} (placedSegment : segment.Placed (startingBlock cluster.system.options) archive)
    {group : GroupStage} (placedGroup : group.Placed (startingBlock cluster.system.options) archive)
    {prune : PruneStage} (placedPrune : prune.Placed archive) : Sound { cluster with archive, segment, group, prune } :=
  ⟨steps.uploads.symm ▸ sound.ingesting, steps.sound, placedSegment, placedGroup, placedPrune⟩

theorem Sound.step {input} (sees : cluster.Sees input) (short : input.Short) (stepped : cluster.step input = some after) :
    after.Sound := by
  cases input with
  | upload => exact sound.upload short stepped
  | ingest => exact sound.ingest stepped
  | write => exact sound.write stepped
  | complete => exact sound.complete stepped
  | crash =>
    cases stepped
    exact sound.crash
  | segment =>
    obtain ⟨⟨archive, segment⟩, moved, rfl⟩ := Option.map_eq_some_iff.mp stepped
    obtain ⟨steps, placed⟩ := SegmentStage.Placed.step sound.archive (sound.shown sees) sound.segment moved
    exact sound.ofCompaction steps placed (steps.grows.groupStage sound.group) (steps.grows.pruneStage sound.prune)
  | group =>
    obtain ⟨⟨archive, group⟩, moved, rfl⟩ := Option.map_eq_some_iff.mp stepped
    obtain ⟨steps, placed⟩ := GroupStage.Placed.step sound.archive (sound.shown sees) sound.group moved
    exact sound.ofCompaction steps (steps.grows.segmentStage sound.segment) placed
      (steps.grows.pruneStage sound.prune)
  | prune view =>
    cases stepped
    obtain ⟨steps, placed⟩ := PruneStage.Placed.step view sound.archive sound.prune
    exact sound.ofCompaction steps (steps.grows.segmentStage sound.segment)
      (steps.grows.groupStage sound.group) placed
  | resetSegment =>
    cases stepped
    exact ⟨sound.ingesting, sound.archive, trivial, sound.group, sound.prune⟩
  | resetGroup =>
    cases stepped
    exact ⟨sound.ingesting, sound.archive, sound.segment, trivial, sound.prune⟩
  | resetPrune =>
    cases stepped
    exact ⟨sound.ingesting, sound.archive, sound.segment, sound.group, trivial⟩

end

theorem fresh_sound (options : CompactionServiceOptions) (fragmentInfo : List FragmentInfo)
    (ingestion : IngestionServiceOptions) (supportsPending : Bool) :
    (fresh options fragmentInfo ingestion supportsPending).Sound := by
  refine ⟨.idle (System.fresh_ok _ _) (.fresh _ _) fun hashes held => ?_, .fresh _ _ _, trivial, trivial, trivial⟩
  cases held with
  | builder alive | recent alive | stored alive => cases alive

/-! ## Readers -/

theorem inSegment_of_segmentedTo {start stop} (tiled : cluster.archive.SegmentedTo start stop) (lower : start ≤ number)
    (upper : number < stop) :
    cluster.InSegment (start + (number - start) / cluster.archive.options.segmentSize *
      cluster.archive.options.segmentSize) number := by
  intro name isName
  obtain ⟨data, found, numbers⟩ := tiled.present_of_lt lower upper name isName
  refine ⟨data, found, ?_⟩
  have floor := Nat.div_mul_le_self (number - start) cluster.archive.options.segmentSize
  have ceiling := Nat.lt_div_mul_add cluster.archive.options.segmentPositive (a := number - start)
  rw [← List.getElem?_map, numbers, List.getElem?_range' (by omega)]
  congr 1
  omega

theorem getCanonical_of_impl {canonical : FullCanonicalChain} {cursor} (lower : canonical.startingBlock ≤ number)
    (upper : number ≤ canonical.getHead.number) (answered : canonical.getCanonicalImpl number = .ok cursor) :
    canonical.getCanonical number = .ok (.canonical cursor) := by
  have notAfter : ¬ number > canonical.recent.info.lastBlock.number := not_lt.mpr upper
  rw [FullCanonicalChain.getCanonical, if_neg notAfter, if_neg (not_lt.mpr lower), answered]
  rfl

theorem Sound.finds (sound : cluster.Sound) {view} (isView : cluster.currentView = some view)
    (lower : startingBlock cluster.system.options ≤ number) (upper : number ≤ view.canonical.getHead.number) :
    cluster.Finds view number := by
  obtain ⟨canonical, reads, rfl⟩ := Option.map_eq_some_iff.mp isView
  obtain ⟨ok, stocked⟩ := sound.visible_ok
  obtain ⟨starting, answers⟩ := stocked.reads ok reads
  rw [visible_options] at starting answers
  have aligned {size : Nat} (positive : 0 < size) :
      ¬ (number < canonical.startingBlock ∨ size = 0) := by
    rw [starting]
    omega
  refine ⟨fun segmented isSegmented bound => ?_, fun above => ?_, fun grouped isGrouped bound => ?_⟩
  · refine ⟨_, if_neg (aligned cluster.archive.options.segmentPositive), ?_⟩
    have tiled := (sound.archive.segmented segmented (HighWater.value_mem isSegmented)).segmentedTo
    simp only [ChainView.new, starting]
    exact inSegment_of_segmentedTo tiled lower (Nat.lt_succ_of_le bound)
  · obtain ⟨hash, answered⟩ := answers number lower upper
    refine ⟨_, getCanonical_of_impl (starting.trans_le lower) upper answered, ?_⟩
    have published : cluster.visible.publishedHash number = some hash := by
      rw [System.publishedHash, reads, Option.bind_some, answered]
      rfl
    obtain ⟨_, held, found⟩ := System.publishedHash_held published
    refine sound.archive.kept _ (sound.visible_held held found) fun grouped had => ?_
    obtain ⟨_, isSegmented, below⟩ := sound.archive.ordered grouped had
    obtain ⟨current, isCurrent, bound⟩ := HighWater.le_value isSegmented
    exact (below.trans_le bound).trans (above current isCurrent)
  · have positive := Nat.mul_pos cluster.archive.options.groupPositive cluster.archive.options.segmentPositive
    refine ⟨_, if_neg (aligned positive), ?_⟩
    have tiled := (sound.archive.grouped grouped (HighWater.value_mem isGrouped)).groupedTo
    simp only [ChainView.new, starting]
    exact tiled.present_of_lt lower (Nat.lt_succ_of_le bound)

theorem Sound.readable (sound : cluster.Sound) : cluster.Readable where
  segmented _ isSegmented := (sound.archive.segmented _ (HighWater.value_mem isSegmented)).aligned
  grouped block isGrouped := by
    have had := HighWater.value_mem isGrouped
    obtain ⟨_, isSegmented, below⟩ := sound.archive.ordered block had
    obtain ⟨current, isCurrent, bound⟩ := HighWater.le_value isSegmented
    exact ⟨(sound.archive.grouped block had).aligned, current, isCurrent, below.trans_le bound⟩
  finds _ isView _ lower upper := sound.finds isView lower upper

/-- Every block of the published chain is readable, in every state that the
    services reach while block numbers have at most ten digits. -/
theorem readable_of_short {options : CompactionServiceOptions} {fragmentInfo : List FragmentInfo}
    {ingestion : IngestionServiceOptions} {supportsPending : Bool} {inputs : List ClusterInput} {last : Cluster}
    (sees : Runs.Meets step Sees (fresh options fragmentInfo ingestion supportsPending) inputs)
    (short : ∀ input ∈ inputs, input.Short)
    (reached : Runs.run step (fresh options fragmentInfo ingestion supportsPending) inputs = some last) :
    last.Readable :=
  (Runs.run_guarded (fun _ _ _ before guard stepped => before.step guard.1 guard.2 stepped)
    (fresh_sound options fragmentInfo ingestion supportsPending) (sees.and_forall short) reached).readable

/-- A computable form of `Sees`. -/
def seesCheck (cluster : Cluster) : ClusterInput → Bool
  | .segment view | .group view | .prune view =>
    cluster.visible.world.etcd.startingBlock = some view.canonical.startingBlock &&
      view.segmented.all (· ∈ cluster.archive.segmented.values) &&
      view.grouped.all (· ∈ cluster.archive.grouped.values)
  | _ => true

theorem sees_of_check (cluster : Cluster) (input : ClusterInput) (checked : cluster.seesCheck input = true) :
    cluster.Sees input := by
  have notAhead {view : ChainView} (checked : cluster.seesCheck (.prune view) = true) : cluster.NotAhead view := by
    simp only [seesCheck, Bool.and_eq_true, decide_eq_true_eq, Option.all_eq_true] at checked
    exact ⟨checked.1.1, checked.1.2, checked.2⟩
  cases input with
  | segment | group | prune => exact notAhead checked
  | _ => trivial

end Cluster

/-! ## The first groups of a chain

Four blocks without data from `start` on, in segments of one block and groups of one
segment.  The run ends when the prune service is about to list the first block.
-/

namespace FirstGroups

def hash (number : Nat) : Hash := ⟨1 :: (Nat.toDigits 10 number).map fun digit => UInt8.ofNat digit.toNat⟩

def cursor (number : Nat) : Cursor := ⟨number, hash number⟩

def blockInfo (number : Nat) : BlockInfo := ⟨number, hash number, hash (number - 1)⟩

def block : Block := ⟨⟨[]⟩, ⟨[]⟩, ⟨[]⟩, []⟩

/-- One task at a time, and chain segments that are larger than the chain gets. -/
def options (start : Nat) : IngestionServiceOptions := ⟨1, 10 ^ 11, 1, some start⟩

def fresh (start : Nat) : Cluster := .fresh ⟨1, 1, Nat.one_pos, Nat.one_pos⟩ [] (options start) false

def answers (start : Nat) : InitializeAnswers :=
  { head := .ok (cursor start)
    finalized := .ok (cursor start)
    blockInfo := fun number => .ok (blockInfo number)
    ingestBlock := fun number => .ok (blockInfo number)
    deletesLegacyRecent := true
    deletesLegacyIngested := true }

def arrival (number : Nat) : List ClusterInput :=
  [.upload (cursor number) block, .ingest (.taskResult (.finished (.ok (.main (blockInfo number)))))]

/-- A block that is published when it is ingested. -/
def published (number : Nat) : List ClusterInput := arrival number ++ [.write, .write, .complete]

def ingestion (start : Nat) : List ClusterInput :=
  [.upload (cursor start) block, .ingest (.start (answers start)), .write, .write, .write, .write, .complete,
      .ingest (.refreshHead (cursor (start + 3))), .complete] ++
    published (start + 1) ++ published (start + 2) ++ published (start + 3) ++
    [.ingest (.refreshFinalized (.ok (cursor (start + 3)))), .write, .complete]

def view (start : Nat) (segmented grouped : Option Nat) : ChainView :=
  .new (start + 3) segmented grouped 1 1
    { store := fun _ => .ok none
      startingBlock := start
      chainSegmentSize := 10 ^ 11
      recent :=
        { previousSegment := none
          info := ⟨cursor start, cursor (start + 3)⟩
          canonical := (List.range' start 4).map fun number => ⟨hash number, ∅⟩
          extraReorgs := [] } }

def compaction (start : Nat) : List ClusterInput :=
  List.replicate 11 (.segment (view start none none)) ++
    List.replicate 11 (.segment (view start (some start) none)) ++
    List.replicate 11 (.segment (view start (some (start + 1)) none)) ++
    List.replicate 7 (.group (view start (some (start + 2)) none)) ++
    List.replicate 7 (.group (view start (some (start + 2)) (some start)))

def lastView (start : Nat) : ChainView := view start (some (start + 2)) (some (start + 1))

def inputs (start : Nat) : List ClusterInput :=
  ingestion start ++ compaction start ++ List.replicate 4 (.prune (lastView start))

end FirstGroups

open FirstGroups

theorem Cluster.readable_of_short_firstGroups :
    ∃ last, Runs.run Cluster.step (FirstGroups.fresh 0)
        (FirstGroups.inputs 0 ++ List.replicate 8 (.prune (lastView 0))) = some last ∧
      last.archive.segmented.value = some 2 ∧ last.archive.grouped.value = some 1 ∧
      last.archive.pruned = some 0 ∧ last.Readable := by
  obtain ⟨last, reached, segmented, grouped, pruned⟩ :
      ∃ last, Runs.run Cluster.step (FirstGroups.fresh 0)
          (FirstGroups.inputs 0 ++ List.replicate 8 (.prune (lastView 0))) = some last ∧
        last.archive.segmented.value = some 2 ∧ last.archive.grouped.value = some 1 ∧
        last.archive.pruned = some 0 :=
    ⟨_, rfl, rfl, rfl, rfl⟩
  have sees : Runs.Meets Cluster.step Cluster.Sees (FirstGroups.fresh 0)
      (FirstGroups.inputs 0 ++ List.replicate 8 (.prune (lastView 0))) := .of_checks Cluster.sees_of_check rfl
  refine ⟨last, reached, segmented, grouped, pruned, Cluster.readable_of_short sees ?_ reached⟩
  decide

end Starkstream
