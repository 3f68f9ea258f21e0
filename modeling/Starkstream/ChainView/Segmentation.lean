import Starkstream.ChainView.Full
import Starkstream.Ingestion.ChainEffect

/-! # Segmentation is transparent

The service cuts segments off the chain and stores them under the number of
their first block; readers compute that number.  A recording follows a run of
the service with what it does not keep itself: the chain from which nothing was
cut off, the segments cut off so far, and both as they were when the snapshot
that the pointer refers to was published.
-/

namespace Starkstream

open CanonicalChainBuilder
open IngestionService

/-- History of the stores. -/
structure Ledger where
  /-- The segments ever stored, oldest first. -/
  stored : List CanonicalChainSegment
  /-- The unsplit chain when the current pointer was published. -/
  publishedUnsplit : CanonicalChainBuilder
  /-- The segments taken when the current pointer was published. -/
  publishedTaken : List CanonicalChainSegment

/-- One write of an event after which the unsplit chain is `unsplit` and the
    segments taken are `taken`. -/
def Ledger.apply (unsplit : CanonicalChainBuilder) (taken : List CanonicalChainSegment) (ledger : Ledger) :
    Write → Ledger
  | .putSegment segment => { ledger with stored := ledger.stored ++ [segment] }
  | .putRecent _ => { ledger with publishedUnsplit := unsplit, publishedTaken := taken }
  | _ => ledger

/-- The segments that the builder handed out in an event; each is stored next. -/
def segmentsOf (writes : List Write) : List CanonicalChainSegment :=
  writes.filterMap fun
    | .putSegment segment => some segment
    | _ => none

/-- The unsplit chain after an event: the same calls, without `take_segment`. -/
def unsplitAfter (unsplit : CanonicalChainBuilder) (event : Event)
    (result : Outcome IngestionError (IngestionService × IngestionState)) : CanonicalChainBuilder :=
  match event, result with
  | .start _, .ok (service, _) => service.chainBuilder
  | .taskResult (.finished (.ok (.main block))), .ok (_, .ingest _) => (unsplit.grow block).2
  | .recover _, .ok (_, .ingest state) => (unsplit.shrink state.lastIngested).2
  | _, _ => unsplit

structure Recording where
  system : System
  /-- The chain of the builder, had no segment been taken from it. -/
  unsplit : CanonicalChainBuilder
  /-- The segments taken from the builder, oldest first. -/
  taken : List CanonicalChainSegment
  ledger : Ledger

namespace Recording

def fresh (options : IngestionServiceOptions) (supportsPending : Bool) : Recording :=
  ⟨.fresh options supportsPending, .empty, [], ⟨[], .empty, []⟩⟩

def step (recording : Recording) (input : Input) : Option Recording :=
  (recording.system.plan input.event).map fun tick =>
    let unsplit := unsplitAfter recording.unsplit input.event tick.result
    let taken := recording.taken ++ segmentsOf tick.writes
    { system := recording.system.finish input.crash tick
      unsplit
      taken
      ledger := (applied input.crash tick.writes).foldl (Ledger.apply unsplit taken) recording.ledger }

end Recording

/-- A reader between two moments of a run.  It may hold any segment that was
    stored under the name by the later moment, and it does find the segments that
    were stored at the earlier one. -/
structure Reads (before after : Recording) (get : ChainStoreGet) : Prop where
  written : ∀ start segment, get start = .ok (some segment) →
    segment ∈ after.ledger.stored ∧ segment.info.firstBlock.number = start
  available : ∀ start, start ∈ before.system.world.store.segments →
    ∃ segment, get start = .ok (some segment)

/-- The chain view of a reader that holds the given snapshot. -/
def viewOf (options : IngestionServiceOptions) (get : ChainStoreGet) (recent : CanonicalChainSegment) :
    FullCanonicalChain :=
  { store := get
    startingBlock := startingBlock options
    chainSegmentSize := options.chainSegmentSize
    recent }

/-- The segments have one size and follow each other from the starting block. -/
structure Aligned (options : IngestionServiceOptions) (taken : List CanonicalChainSegment) : Prop where
  positive : taken ≠ [] → 0 < options.chainSegmentSize
  position : ∀ (i : Nat) (segment : CanonicalChainSegment), taken[i]? = some segment →
    segment.info.firstBlock.number = startingBlock options + i * options.chainSegmentSize ∧
    segment.info.lastBlock.number + 1 =
      startingBlock options + i * options.chainSegmentSize + options.chainSegmentSize

/-- A chain and the segments taken from it, as parts of the unsplit chain. -/
structure Divided (options : IngestionServiceOptions) (taken : List CanonicalChainSegment)
    (chain whole : Building) : Prop extends Splits taken chain whole where
  aligned : Aligned options taken
  starts : whole.info.firstBlock.number = startingBlock options
  follows : chain.info.firstBlock.number = startingBlock options + taken.length * options.chainSegmentSize

namespace Aligned

variable {options : IngestionServiceOptions} {taken : List CanonicalChainSegment}

theorem nil (options : IngestionServiceOptions) : Aligned options [] :=
  ⟨fun nonempty => absurd rfl nonempty, fun i segment found => by cases found⟩

variable (aligned : Aligned options taken)
include aligned

theorem append {segment : CanonicalChainSegment} (positive : 0 < options.chainSegmentSize)
    (first : segment.info.firstBlock.number =
      startingBlock options + taken.length * options.chainSegmentSize) (last : segment.info.lastBlock.number + 1 =
      startingBlock options + taken.length * options.chainSegmentSize + options.chainSegmentSize) :
    Aligned options (taken ++ [segment]) := by
  refine ⟨fun _ => positive, fun i other found => ?_⟩
  rcases Nat.lt_trichotomy i taken.length with old | rfl | past
  · rw [List.getElem?_append_left old] at found
    exact aligned.position i other found
  · rw [List.getElem?_concat_length] at found
    cases found
    exact ⟨first, last⟩
  · rw [List.getElem?_eq_none (by simpa using past)] at found
    cases found

theorem unique {i j : Nat} {left right} (leftAt : taken[i]? = some left) (rightAt : taken[j]? = some right)
    (same : left.info.firstBlock.number = right.info.firstBlock.number) : i = j ∧ left = right := by
  have positive := aligned.positive (List.ne_nil_of_mem (List.mem_of_getElem? leftAt))
  rw [(aligned.position i left leftAt).1, (aligned.position j right rightAt).1] at same
  have index : i = j := Nat.eq_of_mul_eq_mul_right positive (Nat.add_left_cancel same)
  subst index
  exact ⟨rfl, Option.some.inj (leftAt.symm.trans rightAt)⟩

/-- The name computed by a reader for a block is that of the segment that covers it. -/
theorem segment_at {number} (lower : startingBlock options ≤ number)
    (below : number < startingBlock options + taken.length * options.chainSegmentSize) :
    ∃ (i start : Nat) (segment : CanonicalChainSegment), taken[i]? = some segment ∧
      chainSegmentStart number (startingBlock options) options.chainSegmentSize = .ok start ∧
      segment.info.firstBlock.number = start ∧ segment.covers number = true := by
  obtain ⟨offset, rfl⟩ := Nat.exists_eq_add_of_le lower
  have inside : offset < taken.length * options.chainSegmentSize := by omega
  have nonempty : taken ≠ [] := by
    rintro rfl
    simp at inside
  have positive := aligned.positive nonempty
  have index : offset / options.chainSegmentSize < taken.length := (Nat.div_lt_iff_lt_mul positive).mpr inside
  obtain ⟨segment, segmentAt⟩ : ∃ segment, taken[offset / options.chainSegmentSize]? = some segment :=
    ⟨_, List.getElem?_eq_getElem index⟩
  obtain ⟨first, _⟩ := aligned.position _ segment segmentAt
  refine ⟨_, _, segment, segmentAt, if_neg (by omega), ?_, ?_⟩
  · rw [first, Nat.add_sub_cancel_left, Nat.add_comm]
  · have floor := Nat.div_mul_le_self offset options.chainSegmentSize
    have ceiling := Nat.lt_div_mul_add positive (a := offset)
    rw [CanonicalChainSegment.covers_iff]
    omega

end Aligned

/-! ## The stores after every write -/

def applyBoth (unsplit : CanonicalChainBuilder) (taken : List CanonicalChainSegment)
    (stores : World × Ledger) (effect : Write) : World × Ledger :=
  (stores.1.apply effect, stores.2.apply unsplit taken effect)

theorem foldl_applyBoth (unsplit : CanonicalChainBuilder) (taken : List CanonicalChainSegment)
    (writes : List Write) (world : World) (ledger : Ledger) :
    writes.foldl (applyBoth unsplit taken) (world, ledger) =
      (world.applyAll writes, writes.foldl (Ledger.apply unsplit taken) ledger) := by
  induction writes generalizing world ledger with
  | nil => rfl
  | cons effect rest ih => exact ih _ _

structure Ledger.Ok (options : IngestionServiceOptions) (taken : List CanonicalChainSegment)
    (stores : World × Ledger) : Prop where
  older : ∀ pointer, stores.1.etcd.recent = some pointer → pointer.key < stores.1.store.nextKey
  sub : ∀ segment ∈ stores.2.stored, segment ∈ taken
  kept : ∀ segment ∈ stores.2.stored,
    stores.1.store.segments[segment.info.firstBlock.number]? = some segment
  published : ∀ pointer, stores.1.etcd.recent = some pointer → ∃ chain whole : Building,
    stores.1.store.snapshots[pointer.key]? = some chain.snapshot ∧
    stores.2.publishedUnsplit = .building whole ∧ Divided options stores.2.publishedTaken chain whole ∧
    stores.2.publishedTaken <+: taken ∧ ∀ segment ∈ stores.2.publishedTaken, segment ∈ stores.2.stored

variable {unsplit : CanonicalChainBuilder}

namespace Ledger.Ok

variable {options : IngestionServiceOptions} {taken : List CanonicalChainSegment} {stores : World × Ledger}

theorem mono (ok : Ledger.Ok options taken stores) {more} (extends_ : taken <+: more) :
    Ledger.Ok options more stores := by
  refine ⟨ok.older, fun segment member => extends_.subset (ok.sub segment member), ok.kept, ?_⟩
  intro pointer recent
  obtain ⟨chain, whole, snapshot, unsplit, divided, earlier, stored⟩ := ok.published pointer recent
  exact ⟨chain, whole, snapshot, unsplit, divided, earlier.trans extends_, stored⟩

section
variable (ok : Ledger.Ok options taken stores)
include ok

theorem plain {cause} {effect : Write} (isPlain : effect.Plain options cause) :
    Ledger.Ok options taken (applyBoth unsplit taken stores effect) := by
  cases effect with
  | putFinalized | putStartingBlock | putPending => exact ⟨ok.older, ok.sub, ok.kept, ok.published⟩
  | _ => exact isPlain.elim

theorem putSegment (aligned : Aligned options taken) {segment : CanonicalChainSegment} (member : segment ∈ taken) :
    Ledger.Ok options taken (applyBoth unsplit taken stores (.putSegment segment)) := by
  have isNew : ∀ other ∈ stores.2.stored ++ [segment], other ∈ stores.2.stored ∨ other = segment :=
    fun other among => by simpa using among
  refine ⟨ok.older, ?_, ?_, ?_⟩
  · intro other among
    rcases isNew other among with old | rfl
    · exact ok.sub other old
    · exact member
  · intro other among
    simp only [applyBoth, World.apply, Std.ExtTreeMap.getElem?_insert, Std.compare_eq_iff_eq]
    split_ifs with same
    · -- a segment with this first block was taken once
      have otherTaken : other ∈ taken := by
        rcases isNew other among with old | rfl
        · exact ok.sub other old
        · exact member
      obtain ⟨i, atI⟩ := List.getElem?_of_mem member
      obtain ⟨j, atJ⟩ := List.getElem?_of_mem otherTaken
      exact congrArg some (aligned.unique atI atJ same).2
    · rcases isNew other among with old | rfl
      · exact ok.kept other old
      · exact absurd rfl same
  · intro pointer recent
    obtain ⟨chain, whole, snapshot, isWhole, divided, earlier, stored⟩ := ok.published pointer recent
    refine ⟨chain, whole, snapshot, isWhole, divided, earlier, fun other among => ?_⟩
    exact List.mem_append_left _ (stored other among)

theorem publish {chain whole} (divided : Divided options taken chain whole)
    (stored : ∀ segment ∈ taken, segment ∈ stores.2.stored) :
    Effects.Always (applyBoth (.building whole) taken) (Ledger.Ok options taken) stores
      (publishWrites stores.1 chain.snapshot) := by
  have put : Ledger.Ok options taken (applyBoth (.building whole) taken stores
      (.putRecentSnapshot stores.1.store.nextKey chain.snapshot)) := by
    refine ⟨fun pointer recent => Nat.lt_succ_of_lt (ok.older pointer recent), ok.sub, ok.kept, ?_⟩
    intro pointer recent
    obtain ⟨old, oldWhole, snapshot, rest⟩ := ok.published pointer recent
    refine ⟨old, oldWhole, ?_, rest⟩
    have older := ok.older pointer recent
    simp only [applyBoth, World.apply, Std.ExtTreeMap.getElem?_insert, Std.compare_eq_iff_eq]
    rw [if_neg (by omega)]
    exact snapshot
  refine .cons ok (.cons put (.nil ⟨?_, ok.sub, ok.kept, ?_⟩))
  · rintro pointer ⟨⟩
    exact Nat.lt_succ_self _
  · rintro pointer ⟨⟩
    refine ⟨chain, whole, ?_, rfl, divided, List.prefix_rfl, stored⟩
    simp only [applyBoth, World.apply, Std.ExtTreeMap.getElem?_insert_self]

end

/-- The stores after an event, whether or not the process died in the middle. -/
theorem finish {recording : Recording} {tick : Tick (IngestionService × IngestionState)}
    (always : Effects.Always (applyBoth unsplit taken) (Ledger.Ok options taken)
      (recording.system.world, recording.ledger) tick.writes) (crash : Option Nat) :
    Ledger.Ok options taken ((recording.system.finish crash tick).world,
      (applied crash tick.writes).foldl (Ledger.apply unsplit taken) recording.ledger) := by
  cases crash with
  | some count =>
    have reached := always.take count
    rw [foldl_applyBoth] at reached
    exact reached
  | none =>
    have reached := always.all
    rw [foldl_applyBoth] at reached
    exact reached

end Ledger.Ok

/-! ## Recordings of a process that is not restarted -/

def Event.isStart : Event → Bool
  | .start _ => true
  | _ => false

structure Recording.Ok (options : IngestionServiceOptions) (recording : Recording) : Prop where
  ok : recording.system.Ok
  sameOptions : recording.system.options = options
  aligned : Aligned options recording.taken
  ledger : Ledger.Ok options recording.taken (recording.system.world, recording.ledger)
  stored : ∀ running, recording.system.process = some running →
    ∀ segment ∈ recording.taken, segment ∈ recording.ledger.stored
  divided : ∀ running, recording.system.process = some running → ∀ chain,
    running.1.chainBuilder = .building chain → ∃ whole, recording.unsplit = .building whole ∧
      Divided options recording.taken chain whole

section
variable {options : IngestionServiceOptions}

theorem segmentsOf_plain {event writes} (plain : ∀ write ∈ writes, write.Plain options event) :
    segmentsOf writes = [] := by
  refine List.filterMap_eq_nil_iff.mpr fun write member => ?_
  cases write with
  | putSegment => exact (plain _ member).elim
  | _ => rfl

theorem segmentsOf_published {world segment writes} (published : writes = [] ∨ writes = publishWrites world segment) :
    segmentsOf writes = [] := by
  cases published with
  | inl none | inr none => rw [none]; rfl

theorem foldl_stored (unsplit : CanonicalChainBuilder) (taken : List CanonicalChainSegment)
    (writes : List Write) (ledger : Ledger) :
    (writes.foldl (Ledger.apply unsplit taken) ledger).stored = ledger.stored ++ segmentsOf writes := by
  induction writes generalizing ledger with
  | nil => simp [segmentsOf]
  | cons effect rest ih =>
    rw [List.foldl_cons, ih]
    cases effect with
    | putSegment => simp [Ledger.apply, segmentsOf]
    | _ => rfl

theorem unsplitAfter_still (unsplit : CanonicalChainBuilder) {event : Event} {result} (notStart : event.isStart = false)
    (still : ∀ service state, result = .ok (service, .ingest state) → event.movesChain = false) :
    unsplitAfter unsplit event result = unsplit := by
  unfold unsplitAfter
  split
  · cases notStart
  · cases still _ _ rfl
  · cases still _ _ rfl
  · rfl

theorem Divided.single {block : BlockInfo} (first : block.number = startingBlock options) :
    Divided options [] (.single block) (.single block) := by
  refine ⟨.start block, .nil options, first, ?_⟩
  rw [List.length_nil, Nat.zero_mul, Nat.add_zero]
  exact first

variable {segments : List CanonicalChainSegment} {chain whole : Building}

section
variable (divided : Divided options segments chain whole)
include divided

theorem Divided.grown {block : BlockInfo} (next : block.number = chain.info.lastBlock.number + 1) :
    Divided options segments (chain.grown block) (whole.grown block) :=
  ⟨divided.toSplits.grown next, divided.aligned, divided.starts, divided.follows⟩

theorem Divided.shrinkTo {newHead : Cursor} (canonical : chain.hashAt newHead.number = some newHead.hash) :
    Divided options segments (chain.shrinkTo newHead) (whole.shrinkTo newHead) := by
  refine ⟨divided.toSplits.shrinkTo canonical, divided.aligned, ?_, ?_⟩
  · rw [Building.shrinkTo_first]
    exact divided.starts
  · rw [Building.shrinkTo_first]
    exact divided.follows

theorem Divided.taken (lastHash : Hash) {nextHash} (positive : 0 < options.chainSegmentSize)
    (inside : options.chainSegmentSize < chain.canonical.length)
    (nextAt : chain.canonical[options.chainSegmentSize]? = some nextHash) :
    Divided options (segments ++ [chain.takenSegment options.chainSegmentSize lastHash])
      (chain.remaining options.chainSegmentSize lastHash nextHash) whole := by
  have follows := divided.follows
  refine ⟨divided.toSplits.takenSegment positive inside nextAt, ?_, divided.starts, ?_⟩
  · refine divided.aligned.append positive follows ?_
    simp only [Building.takenSegment]
    omega
  · simp only [Building.remaining_first, List.length_append, List.length_singleton, Nat.add_mul, Nat.one_mul]
    omega

theorem Divided.unsplit_grow (isWhole : unsplit = .building whole) {block}
    (allowed : canGrow (.building chain) block = true) : (unsplit.grow block).2 = .building (whole.grown block) := by
  have allowedWhole : canGrow (.building whole) block = true := by
    simpa only [canGrow, divided.last] using allowed
  rw [isWhole, grow_allowed allowedWhole]

theorem Divided.unsplit_shrink (isWhole : unsplit = .building whole) {newHead : Cursor}
    (canonical : chain.hashAt newHead.number = some newHead.hash) :
    (unsplit.shrink newHead).2 = .building (whole.shrinkTo newHead) := by
  have inside := (divided.stateWf.hashAt_range canonical).1
  have canonicalWhole : whole.hashAt newHead.number = some newHead.hash :=
    (divided.hashes _ inside).symm.trans canonical
  obtain ⟨_, done⟩ := Building.shrink_shrinkTo divided.wholeWf canonicalWhole
  rw [isWhole, done]

end

namespace Recording.Ok

variable {recording next : Recording}

theorem assemble (ok : recording.system.Ok) (sameOptions : recording.system.options = options) {event crash tick}
    (planned : recording.system.plan event = some tick) {taken}
    (isUnsplit : unsplitAfter recording.unsplit event tick.result = unsplit)
    (isTaken : recording.taken ++ segmentsOf tick.writes = taken) (aligned : Aligned options taken)
    (always : Effects.Always (applyBoth unsplit taken) (Ledger.Ok options taken)
      (recording.system.world, recording.ledger) tick.writes)
    (stored : ∀ after, tick.result = .ok after → ∀ segment ∈ recording.taken, segment ∈ recording.ledger.stored)
    (divided : ∀ after, tick.result = .ok after → ∀ chain, after.1.chainBuilder = .building chain →
      ∃ whole, unsplit = .building whole ∧ Divided options taken chain whole)
    (stepped : recording.step ⟨event, crash⟩ = some next) : Recording.Ok options next := by
  have systemStepped : recording.system.step ⟨event, crash⟩ = some (recording.system.finish crash tick) :=
    Option.map_eq_some_iff.mpr ⟨tick, planned, rfl⟩
  subst isUnsplit isTaken
  rw [Recording.step, planned] at stepped
  cases stepped
  refine ⟨ok.step systemStepped, (System.finish_options _ _ _).trans sameOptions, aligned,
    Ledger.Ok.finish always crash, ?_, ?_⟩
  · intro running alive
    obtain ⟨rfl, returned⟩ := System.finish_process alive
    intro segment member
    have kept := foldl_stored (unsplitAfter recording.unsplit event tick.result)
      (recording.taken ++ segmentsOf tick.writes) tick.writes recording.ledger
    simp only [applied, kept]
    rcases List.mem_append.mp member with old | new
    · exact List.mem_append_left _ (stored running returned segment old)
    · exact List.mem_append_right _ new
  · intro running alive
    exact divided running (System.finish_process alive).2

/-- The first event is a start without a published chain. -/
theorem first {supportsPending input} (stepped : (Recording.fresh options supportsPending).step input = some next) :
    Recording.Ok options next := by
  obtain ⟨_, _⟩ := input
  have ok := System.fresh_ok options supportsPending
  have empty : Ledger.Ok options [] ((System.fresh options supportsPending).world, ⟨[], .empty, []⟩) :=
    ⟨ok.store.older, fun _ member => (by cases member), fun _ member => (by cases member),
      fun _ recent => (by cases recent)⟩
  obtain ⟨_, planned, -⟩ := Option.map_eq_some_iff.mp stepped
  cases (ok.transition planned).chainEffect with
  | kept plain same =>
    refine assemble ok rfl planned rfl (congrArg _ (segmentsOf_plain plain)) (.nil options) ?_ ?_ ?_ stepped
    · exact .of_kept empty (fun _ member _ before => before.plain (plain _ member))
    · exact fun _ _ _ member => (by cases member)
    · intro after returned
      obtain ⟨_, running, -⟩ := same after returned
      cases running
  | started idle answered nothing fetched first builder =>
    have divided := Divided.single first
    refine assemble ok rfl planned builder rfl (.nil options) ?_ ?_ ?_ stepped
    · have starting : Write.Plain options .stop (.putStartingBlock (startingBlock options)) := rfl
      have finalized := Write.plain_start answered options
      refine .cons empty (.cons (empty.plain finalized) ?_)
      refine Ledger.Ok.publish (Ledger.Ok.plain (empty.plain finalized) starting) divided ?_
      exact fun _ member => (by cases member)
    · exact fun _ _ _ member => (by cases member)
    · rintro after ⟨⟩ chain isChain
      cases builder.symm.trans isChain
      exact ⟨_, rfl, divided⟩
  | restarted idle answered published => cases published
  | appended running | uploaded running | recovered running => cases running

theorem step (recorded : Recording.Ok options recording) {input : Input} (notStart : input.event.isStart = false)
    (stepped : recording.step input = some next) : Recording.Ok options next := by
  obtain ⟨_, _⟩ := input
  have ok := recorded.ok
  obtain rfl := recorded.sameOptions
  obtain ⟨tick, planned, -⟩ := Option.map_eq_some_iff.mp stepped
  cases (ok.transition planned).chainEffect with
  | kept plain builder still =>
    have unmoved := unsplitAfter_still recording.unsplit notStart still
    have untaken : recording.taken ++ segmentsOf tick.writes = recording.taken := by
      rw [segmentsOf_plain plain, List.append_nil]
    refine assemble ok rfl planned unmoved untaken recorded.aligned ?_ ?_ ?_ stepped
    · exact .of_kept recorded.ledger (fun _ member _ before => before.plain (plain _ member))
    · intro after returned
      obtain ⟨before, running, -⟩ := builder after returned
      exact recorded.stored before running
    · intro after returned chain isChain
      obtain ⟨before, running, sameBuilder⟩ := builder after returned
      exact recorded.divided before running chain (sameBuilder.symm.trans isChain)
  | started | restarted => cases notStart
  | appended running piped next allowed published builder =>
    obtain ⟨_, unsplit, divided⟩ := recorded.divided _ running _ piped.builder
    have stored := recorded.stored _ running
    have untaken := (congrArg (recording.taken ++ ·) (segmentsOf_published published)).trans (List.append_nil _)
    have grownDivided := divided.grown next
    refine assemble ok rfl planned (divided.unsplit_grow unsplit allowed) untaken
      recorded.aligned ?_ (fun _ _ => stored) ?_ stepped
    · rcases published with rfl | rfl
      · exact .nil recorded.ledger
      · exact recorded.ledger.publish grownDivided stored
    · rintro after ⟨⟩ chain isChain
      cases builder.symm.trans isChain
      exact ⟨_, rfl, grownDivided⟩
  | @uploaded _ _ _ _ _ _ lastHash _ running piped next allowed uploads builder =>
    obtain ⟨_, unsplit, divided⟩ := recorded.divided _ running _ piped.builder
    have stored := recorded.stored _ running
    have takenDivided := (divided.grown next).taken lastHash uploads.positive uploads.inside uploads.nextAt
    refine assemble ok rfl planned (divided.unsplit_grow unsplit allowed) rfl
      takenDivided.aligned ?_ (fun _ _ => stored) ?_ stepped
    · refine .cons (recorded.ledger.mono (List.prefix_append _ _)) (Ledger.Ok.publish ?_ takenDivided ?_)
      · exact (recorded.ledger.mono (List.prefix_append _ _)).putSegment takenDivided.aligned (by simp)
      · intro segment member
        rcases List.mem_append.mp member with old | new
        · exact List.mem_append_left _ (stored segment old)
        · exact List.mem_append_right _ new
    · rintro after ⟨⟩ chain isChain
      cases builder.symm.trans isChain
      exact ⟨_, rfl, takenDivided⟩
  | recovered running chained canonical last builder =>
    obtain ⟨whole, unsplit, divided⟩ := recorded.divided _ running _ chained.builder
    have stored := recorded.stored _ running
    have shrunkDivided := divided.shrinkTo canonical
    have shrunk : (recording.unsplit.shrink _).2 = .building (whole.shrinkTo _) :=
      divided.unsplit_shrink unsplit canonical
    refine assemble ok rfl planned (last ▸ shrunk) (List.append_nil _) recorded.aligned
      (recorded.ledger.publish shrunkDivided stored) (fun _ _ => stored) ?_ stepped
    rintro after ⟨⟩ chain isChain
    cases builder.symm.trans isChain
    exact ⟨_, rfl, shrunkDivided⟩

theorem run (recorded : Recording.Ok options recording) {inputs}
    (notStart : ∀ input ∈ inputs, input.event.isStart = false)
    (reached : Runs.run Recording.step recording inputs = some next) : Recording.Ok options next :=
  Runs.run_invariant (fun input member _ _ before stepped => before.step (notStart input member) stepped)
    recorded reached

end Recording.Ok

/-- The segments taken at the end of a run are those taken at its beginning and
    others after them. -/
theorem Recording.taken_extends {recording next inputs} (reached : Runs.run Recording.step recording inputs = some next) :
    recording.taken <+: next.taken := by
  induction inputs generalizing recording with
  | nil =>
    cases reached
    exact List.prefix_rfl
  | cons input rest ih =>
    obtain ⟨_, stepped, later⟩ := Option.bind_eq_some_iff.mp reached
    obtain ⟨_, _, rfl⟩ := Option.map_eq_some_iff.mp stepped
    exact (List.prefix_append _ _).trans (ih later)

/-! ## What readers find -/

/-- A reader finds the segment that covers a block, and it answers as the unsplit
    chain there. -/
theorem Divided.sameAt (divided : Divided options segments chain whole) {get}
    (finds : ∀ segment ∈ segments, get segment.info.firstBlock.number = .ok (some segment)) {number}
    (lower : startingBlock options ≤ number) :
    (viewOf options get chain.snapshot).SameAt (viewOf options get whole.snapshot) number := by
  have wholeFound : (viewOf options get whole.snapshot).getChainSegment number = .ok whole.snapshot :=
    if_pos (divided.starts.trans_le lower)
  by_cases recent : chain.info.firstBlock.number ≤ number
  · exact ⟨_, _, if_pos recent, wholeFound, divided.agrees_current recent⟩
  · obtain ⟨i, _, segment, segmentAt, named, first, covers⟩ :=
      divided.aligned.segment_at lower (divided.follows ▸ not_le.mp recent)
    have member := List.mem_of_getElem? segmentAt
    refine ⟨segment, _, ?_, wholeFound, divided.agrees_taken member covers⟩
    have older : ¬ (viewOf options get chain.snapshot).recent.info.firstBlock.number ≤ number := recent
    have stored := finds segment member
    rw [first] at stored
    rw [FullCanonicalChain.getChainSegment, if_neg older]
    simp only [viewOf, named, stored, bind, Except.bind]

/-- What a reader finds under the name of a segment is that segment, whenever it
    read it. -/
theorem Reads.finds {before after : Recording} {get} (reads : Reads before after get)
    (recorded : Recording.Ok options before) (later : Recording.Ok options after)
    (extends_ : before.taken <+: after.taken) {segment} (stored : segment ∈ before.ledger.stored) :
    get segment.info.firstBlock.number = .ok (some segment) := by
  have present : segment.info.firstBlock.number ∈ before.system.world.store.segments := by
    rw [Std.ExtTreeMap.mem_iff_isSome_getElem?, recorded.ledger.kept segment stored]
    rfl
  obtain ⟨found, isFound⟩ := reads.available _ present
  obtain ⟨written, sameFirst⟩ := reads.written _ found isFound
  obtain ⟨i, foundAt⟩ := List.getElem?_of_mem (later.ledger.sub found written)
  obtain ⟨j, segmentAt⟩ := List.getElem?_of_mem (extends_.subset (recorded.ledger.sub segment stored))
  obtain ⟨-, rfl⟩ := later.aligned.unique foundAt segmentAt sameFirst
  exact isFound

/-- Segmentation is transparent: for the snapshot published at a moment of a run
    without a restart, and whatever a reader read of the chain store since, every
    query from the starting block on is answered as by the unsplit chain, and the
    segment it needs is always found. -/
theorem Recording.segmentation_transparent (options : IngestionServiceOptions) (supportsPending : Bool)
    {first : Input} {rest more : List Input} {before after : Recording}
    (noRestart : ∀ input ∈ rest ++ more, input.event.isStart = false)
    (earlier : Runs.run Recording.step (.fresh options supportsPending) (first :: rest) = some before)
    (later : Runs.run Recording.step before more = some after)
    {pointer : RecentSegmentPointer} {snapshot : CanonicalChainSegment}
    (published : before.system.world.etcd.recent = some pointer)
    (isSnapshot : before.system.world.store.snapshots[pointer.key]? = some snapshot)
    {get : ChainStoreGet} (reads : Reads before after get) :
    (∀ segment ∈ before.ledger.publishedTaken,
      before.system.world.store.segments[segment.info.firstBlock.number]? = some segment) ∧
    ∃ unsplit, before.ledger.publishedUnsplit.currentSegment = .ok unsplit ∧
      ∀ number, startingBlock options ≤ number →
        (∃ segment, (viewOf options get snapshot).getChainSegment number = .ok segment) ∧
        (viewOf options get snapshot).getCanonical number = (viewOf options get unsplit).getCanonical number ∧
        ∀ cursor, cursor.number = number →
          (viewOf options get snapshot).getNextCursor (some cursor) =
            (viewOf options get unsplit).getNextCursor (some cursor) ∧
          (viewOf options get snapshot).validateCursor cursor =
            (viewOf options get unsplit).validateCursor cursor := by
  obtain ⟨started, firstStep, afterFirst⟩ := Option.bind_eq_some_iff.mp earlier
  have recorded : Recording.Ok options before := (Recording.Ok.first firstStep).run
    (fun input member => noRestart input (List.mem_append_left _ member)) afterFirst
  have recordedLater : Recording.Ok options after :=
    recorded.run (fun input member => noRestart input (List.mem_append_right _ member)) later
  obtain ⟨chain, whole, storedSnapshot, isWhole, divided, -, stored⟩ :=
    recorded.ledger.published pointer published
  cases storedSnapshot.symm.trans isSnapshot
  have finds : ∀ segment ∈ before.ledger.publishedTaken,
      get segment.info.firstBlock.number = .ok (some segment) :=
    fun segment member => reads.finds recorded recordedLater (Recording.taken_extends later) (stored segment member)
  refine ⟨fun segment member => recorded.ledger.kept segment (stored segment member), whole.snapshot,
    by rw [isWhole]; rfl, fun number lower => ?_⟩
  have heads : (viewOf options get chain.snapshot).recent.info.lastBlock =
    (viewOf options get whole.snapshot).recent.info.lastBlock := divided.last
  have same := divided.sameAt finds lower
  refine ⟨⟨_, same.choose_spec.choose_spec.1⟩, same.getCanonical heads lower rfl, ?_⟩
  rintro cursor rfl
  refine ⟨same.getNextCursor heads fun notHead => ?_, same.validateCursor⟩
  exact divided.sameAt finds (Nat.le_succ_of_le lower)

end

namespace SmallSegments

/-- Segments of one block, uploaded when one more block follows. -/
def options : IngestionServiceOptions := ⟨10, 1, 1, none⟩

def blockZero : BlockInfo := ⟨0, ⟨[1]⟩, ⟨[]⟩⟩
def blockOne : BlockInfo := ⟨1, ⟨[2]⟩, ⟨[1]⟩⟩

/-- The segment that is cut off when block 1 arrives. -/
def firstSegment : CanonicalChainSegment :=
  ((Building.single blockZero).grown blockOne).takenSegment 1 blockZero.hash

def secondSnapshot : CanonicalChainSegment :=
  (((Building.single blockZero).grown blockOne).remaining 1 blockZero.hash blockOne.hash).snapshot

def inputs : List Input := [.newHead blockOne.cursor, .ingested blockOne]

def fetch (start : Nat) : Except (Report ChainStoreError) (Option CanonicalChainSegment) :=
  if start = 0 then .ok (some firstSegment) else .ok none

end SmallSegments

open SmallSegments

theorem Recording.segmentation_transparent_small :
    ∃ before pointer, Runs.run Recording.step (.fresh options false) (.startAt blockZero :: inputs) = some before ∧
      before.system.world.etcd.recent = some pointer ∧
      before.system.world.store.snapshots[pointer.key]? = some secondSnapshot ∧
      before.ledger.publishedTaken = [firstSegment] ∧
      ∃ unsplit, before.ledger.publishedUnsplit.currentSegment = .ok unsplit ∧
        (viewOf options fetch secondSnapshot).getNextCursor (some blockZero.cursor) =
          (viewOf options fetch unsplit).getNextCursor (some blockZero.cursor) := by
  obtain ⟨before, earlier, recent, snapshot, taken, stored, segments⟩ :
      ∃ before, Runs.run Recording.step (.fresh options false) (.startAt blockZero :: inputs) = some before ∧
        before.system.world.etcd.recent = some ⟨1, 1, 1⟩ ∧
        before.system.world.store.snapshots[1]? = some secondSnapshot ∧
        before.ledger.publishedTaken = [firstSegment] ∧ before.ledger.stored = [firstSegment] ∧
        before.system.world.store.segments = (∅ : Std.ExtTreeMap Nat _).insert 0 firstSegment :=
    ⟨_, rfl, rfl, rfl, rfl, rfl, rfl⟩
  have reads : Reads before before fetch := by
    constructor
    · intro start segment found
      unfold fetch at found
      split_ifs at found with zero
      · cases found
        exact ⟨by simp [stored], zero.symm⟩
      · simp at found
    · intro start present
      rw [segments, Std.ExtTreeMap.mem_insert, Std.compare_eq_iff_eq] at present
      rcases present with rfl | absent
      · exact ⟨firstSegment, rfl⟩
      · exact absurd absent Std.ExtTreeMap.not_mem_empty
  have noRestart : ∀ input ∈ inputs ++ [], input.event.isStart = false := by
    simp [inputs, Input.newHead, Input.ingested, Event.isStart]
  obtain ⟨-, unsplit, isUnsplit, answers⟩ :=
    segmentation_transparent options false noRestart earlier rfl recent snapshot reads
  exact ⟨before, _, earlier, recent, snapshot, taken, unsplit, isUnsplit,
    ((answers 0 le_rfl).2.2 blockZero.cursor rfl).1⟩

end Starkstream
