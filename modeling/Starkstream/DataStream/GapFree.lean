import Starkstream.DataStream.Delivery

/-! # Streams without gaps

The invariant behind gap-free delivery.  The blocks of the client are on a chain
that was published and that has the block the stream stands on; once that block
came out of a segment, they are on the current chain and can no longer be
removed.
-/

namespace Starkstream

open CanonicalChainBuilder
open IngestionService

def ChainView.Settles (view : ChainView) (whole : Building) (block : Cursor) : Prop :=
  view.SegmentedTo block.number ∧ whole.hashAt block.number = some block.hash

/-- The headers of a segment that starts at `start`. -/
def ChainView.Stores (view : ChainView) (whole : Building) (start : Nat) (headers : List Cursor) : Prop :=
  ∀ (i : Nat) (header : Cursor), headers[i]? = some header →
    header.number = start + i ∧ view.Settles whole header

namespace Delivery

/-- The deployment behind the chain view. -/
structure Backed (offered : List BlockInfo) (delivery : Delivery) (state whole : Building) : Prop where
  publishing : Publishing delivery.options offered delivery.chain state whole
  canonical : delivery.view.canonical = readerOf delivery.options delivery.chain state.snapshot
  current : whole ∈ delivery.published
  was : ∀ old ∈ delivery.published, Was delivery.options delivery.chain.grown old
  compacted : delivery.view.Compacted
  head : ∀ number, delivery.view.SegmentedTo number → number ≤ whole.info.lastBlock.number
  stored : ∀ start headers, delivery.segments start = some headers → delivery.view.Stores whole start headers

/-- What a change of the deployment keeps. -/
structure Progress (before after : Delivery) (whole wholeAfter : Building) : Prop where
  options : after.options = before.options
  published : before.published ⊆ after.published
  view : before.view.Later after.view
  settles : ∀ block, before.view.Settles whole block → after.view.Settles wholeAfter block

theorem boundary_starts {view : ChainView} {size block} (boundary : view.boundary size block = true) :
    view.Starts size (block + 1) := by
  simp only [ChainView.boundary, Bool.and_eq_true, decide_eq_true_eq, beq_iff_eq] at boundary
  obtain ⟨⟨-, _⟩, divides⟩ := boundary
  refine ⟨(block + 1 - view.canonical.startingBlock) / size, ?_⟩
  have exact_ := Nat.div_add_mod (block + 1 - view.canonical.startingBlock) size
  rw [divides, Nat.add_zero, Nat.mul_comm] at exact_
  omega

variable {delivery : Delivery}

namespace Backed

variable {offered : List BlockInfo} {after : Delivery} {state whole : Building}

section
variable (backed : Backed offered delivery state whole)
include backed

theorem startingBlock : delivery.view.canonical.startingBlock = IngestionService.startingBlock delivery.options := by
  rw [backed.canonical]
  rfl

theorem getHead : delivery.view.canonical.getHead = whole.info.lastBlock := by
  rw [backed.canonical]
  exact backed.publishing.divided.last

theorem cursorAt {number hash} (found : whole.hashAt number = some hash) :
    delivery.view.cursorAt number = .ok ⟨number, hash⟩ := by
  rw [ChainView.cursorAt, backed.canonical, backed.publishing.getCanonical found]
  rfl

theorem publish (nonzero : ∀ block ∈ offered, block.hash.isZero = false) {ops}
    (isOffered : ∀ block, .grow block ∈ ops → block ∈ offered) (stepped : delivery.publish ops = some after) :
    ∃ stateAfter wholeAfter, Backed offered after stateAfter wholeAfter ∧
      Progress delivery after whole wholeAfter ∧ delivery.streaming.Notified after.streaming := by
  unfold Delivery.publish at stepped
  split_ifs at stepped with allowed
  obtain ⟨chain, reached, published⟩ := Option.bind_eq_some_iff.mp stepped
  rw [List.all_eq_true] at allowed
  obtain ⟨stateAfter, wholeAfter, publishing, more, keeps⟩ :=
    backed.publishing.run nonzero allowed isOffered reached
  simp only [publishing.splitting.builder, publishing.splitting.unsplit, Option.some.injEq] at published
  subst published
  have settles : ∀ block, delivery.view.Settles whole block → delivery.view.Settles wholeAfter block := by
    intro block settled
    obtain ⟨segmented, isSegmented, below⟩ := settled.1
    have kept := keeps segmented isSegmented (backed.head _ ⟨segmented, isSegmented, le_rfl⟩)
    exact ⟨settled.1, (kept.hashes _ below).trans settled.2⟩
  have later : delivery.view.Later
      { delivery.view with canonical := readerOf delivery.options chain stateAfter.snapshot } :=
    ⟨backed.startingBlock.symm, rfl, rfl, fun _ settled => settled⟩
  refine ⟨stateAfter, wholeAfter, ⟨publishing, rfl, by simp, ?_, ?_, ?_, ?_⟩,
    ⟨rfl, List.subset_append_left _ _, later, settles⟩, delivery.streaming.notifyHead_notified⟩
  · intro old member
    rcases List.mem_append.mp member with earlier | new
    · exact (backed.was old earlier).mono more
    · obtain rfl := List.mem_singleton.mp new
      exact publishing.was
  · refine ⟨fun block isBlock => later.starts.mpr (backed.compacted.segmented block isBlock), ?_,
      backed.compacted.small⟩
    intro block isBlock
    obtain ⟨starts, upTo⟩ := backed.compacted.grouped block isBlock
    exact ⟨later.starts.mpr starts, upTo⟩
  · intro number upTo
    obtain ⟨segmented, isSegmented, below⟩ := upTo
    have kept := keeps segmented isSegmented (backed.head _ ⟨segmented, isSegmented, le_rfl⟩)
    exact below.trans kept.head
  · intro start headers found i header isHeader
    obtain ⟨number, settled⟩ := backed.stored start headers found i header isHeader
    exact ⟨number, settles header settled⟩

end

variable {block : Nat}

variable (backed : Backed offered delivery state whole)
include backed

theorem stores_headers {start} (head : block ≤ whole.info.lastBlock.number)
    (lower : IngestionService.startingBlock delivery.options ≤ start)
    (inside : start + delivery.view.segmentSize ≤ block + 1) :
    (delivery.view.setSegmentedBlock block).Stores whole start (delivery.view.segmentHeaders start) := by
  intro i header found
  rw [ChainView.segmentHeaders, List.getElem?_map, Option.map_eq_some_iff] at found
  obtain ⟨j, inRange, isHeader⟩ := found
  obtain ⟨short, rfl⟩ := List.getElem?_eq_some_iff.mp inRange
  simp only [List.getElem_range, List.length_range] at isHeader short
  obtain ⟨hash, canonical⟩ := backed.publishing.divided.wholeWf.hashAt_some
    (show whole.info.firstBlock.number ≤ start + i by rw [backed.publishing.divided.starts]; omega)
    (show start + i ≤ whole.info.lastBlock.number by omega)
  rw [backed.cursorAt canonical] at isHeader
  obtain rfl : (⟨start + i, hash⟩ : Cursor) = header := isHeader
  exact ⟨rfl, ⟨block, rfl, by simp only; omega⟩, canonical⟩

theorem segmented (small : block + 1 < 2 ^ 32) (stepped : delivery.step (.segmented block) = some after) :
    Backed offered after state whole ∧ Progress delivery after whole whole ∧
      delivery.streaming.Notified after.streaming := by
  simp only [Delivery.step] at stepped
  split_ifs at stepped with allowed
  obtain ⟨boundary, forward, head⟩ := allowed
  cases stepped
  rw [backed.getHead] at head
  have upTo : ∀ number, delivery.view.SegmentedTo number →
      (delivery.view.setSegmentedBlock block).SegmentedTo number := by
    intro number ⟨old, isOld, below⟩
    have ordered : old ≤ block := by simpa [isOld] using forward
    exact ⟨block, rfl, below.trans ordered⟩
  have settles : ∀ header, delivery.view.Settles whole header →
      (delivery.view.setSegmentedBlock block).Settles whole header :=
    fun header settled => ⟨upTo _ settled.1, settled.2⟩
  refine ⟨⟨backed.publishing, backed.canonical, backed.current, backed.was, ⟨?_, ?_, ?_⟩, ?_, ?_⟩,
    ⟨rfl, List.Subset.refl _, ⟨rfl, rfl, rfl, upTo⟩, settles⟩, .refl _⟩
  · rintro other ⟨⟩
    exact boundary_starts boundary
  · intro other isOther
    obtain ⟨starts, old⟩ := backed.compacted.grouped other isOther
    exact ⟨starts, upTo _ old⟩
  · rintro other ⟨⟩
    exact small
  · rintro number ⟨_, ⟨⟩, below⟩
    exact below.trans head
  · intro start headers found
    simp only [storeSegments] at found
    split_ifs at found with new
    · cases found
      exact backed.stores_headers head (backed.startingBlock ▸ new.1) new.2.2.1
    · intro i header isHeader
      obtain ⟨number, settled⟩ := backed.stored start headers found i header isHeader
      exact ⟨number, settles header settled⟩

theorem grouped (stepped : delivery.step (.grouped block) = some after) :
    Backed offered after state whole ∧ Progress delivery after whole whole ∧
      delivery.streaming.Notified after.streaming := by
  simp only [Delivery.step] at stepped
  split_ifs at stepped with allowed
  obtain ⟨boundary, -, inside⟩ := allowed
  cases stepped
  refine ⟨⟨backed.publishing, backed.canonical, backed.current, backed.was,
    ⟨backed.compacted.segmented, ?_, backed.compacted.small⟩, backed.head, backed.stored⟩,
    ⟨rfl, List.Subset.refl _, ⟨rfl, rfl, rfl, fun _ upTo => upTo⟩, fun _ settled => settled⟩, .refl _⟩
  rintro other ⟨⟩
  refine ⟨boundary_starts boundary, ?_⟩
  obtain ⟨segmented, isSegmented, below⟩ := Option.any_eq_true _ _ |>.mp inside
  exact ⟨segmented, isSegmented, by simpa using below⟩

theorem finalized (stepped : delivery.step (.finalized block) = some after) :
    Backed offered after state whole ∧ Progress delivery after whole whole ∧
      delivery.streaming.Notified after.streaming := by
  cases stepped
  exact ⟨⟨backed.publishing, backed.canonical, backed.current, backed.was,
    ⟨backed.compacted.segmented, backed.compacted.grouped, backed.compacted.small⟩, backed.head, backed.stored⟩,
    ⟨rfl, List.Subset.refl _, ⟨rfl, rfl, rfl, fun _ upTo => upTo⟩, fun _ settled => settled⟩,
    delivery.streaming.notifyFinalized_notified⟩

end Backed

/-! ## The client and the stream -/

/-- Why the blocks of the client are on one chain: there are none, or a chain that
    was published has them and the block the stream stands on, or they can no
    longer be removed. -/
inductive Anchored (delivery : Delivery) (whole : Building) : List Cursor → Option Cursor → Prop where
  | nothing (current : Option Cursor) : Anchored delivery whole [] current
  | onBranch {blocks : List Cursor} {held : Cursor} {old : Building} (nonzero : held.hash.isZero = false)
      (published : old ∈ delivery.published) (here : old.hashAt held.number = some held.hash)
      (onChain : ∀ block ∈ blocks, old.hashAt block.number = some block.hash) :
      Anchored delivery whole blocks (some held)
  | settled {blocks : List Cursor} {held : Cursor} (zero : held.hash.isZero = true)
      (upTo : delivery.view.SegmentedTo held.number)
      (settles : ∀ block ∈ blocks, delivery.view.Settles whole block) : Anchored delivery whole blocks (some held)

/-- The next block is on a chain that was published and that has the blocks of the
    client. -/
structure Extends (delivery : Delivery) (client : Client) (cursor : Cursor) : Prop where
  number : cursor.number = Client.nextNumber (startingBlock delivery.options) client.position
  published : ∃ old ∈ delivery.published, old.hashAt cursor.number = some cursor.hash ∧
    ∀ block ∈ client.blocks, old.hashAt block.number = some block.hash

/-- The blocks on their way from the segment task follow each other, and the
    client is where they reach or pass the block to stream from. -/
inductive Fetching (view : ChainView) (cursor : Cursor) (next : Nat) :
    SegmentTask → List SegmentAccessFetch → List Nat → Prop where
  | starting (here : next = cursor.number) : Fetching view cursor next (.starting cursor) [] []
  | running {producer : SegmentTask} {channel : List SegmentAccessFetch} {ahead : List Nat} (low count : Nat)
      (blocks : ahead ++ blocksOf (channel ++ producer.outgoing) = List.range' low count)
      (reaches : producer.Reaches view (low + count)) (here : next = max low cursor.number) :
      Fetching view cursor next producer channel ahead

def Ready (delivery : Delivery) (whole : Building) (client : Client) : Task → Prop
  | .continuing cursor _ => delivery.Extends client cursor
  | .single cursor _ => delivery.Extends client cursor
  | .segments cursor producer channel access =>
    (∀ block ∈ client.blocks, delivery.view.Settles whole block) ∧
    (∀ fetched, access = some fetched → delivery.view.Stores whole fetched.firstBlock fetched.headers) ∧
    Fetching delivery.view cursor (Client.nextNumber (startingBlock delivery.options) client.position)
      producer channel (access.elim [] (·.blocks))
  | _ => True

structure Held (starting : Option Cursor) (delivery : Delivery) (whole : Building) : Prop where
  follows : (Client.start (startingBlock delivery.options) starting).Follows
    (startingBlock delivery.options) delivery.streaming.sent
  counted : (delivery.client starting).Counted (startingBlock delivery.options)
  position : (delivery.client starting).position = delivery.streaming.stream.current
  anchored : delivery.Anchored whole (delivery.client starting).blocks delivery.streaming.stream.current
  ready : delivery.Ready whole (delivery.client starting) delivery.streaming.task

variable {cursor : Cursor} {task : Task}

section Progress

variable {before after : Delivery} {whole wholeAfter : Building}

theorem Anchored.progress {blocks current} (anchored : before.Anchored whole blocks current)
    (progress : Progress before after whole wholeAfter) : after.Anchored wholeAfter blocks current := by
  cases anchored with
  | nothing => exact .nothing _
  | onBranch nonzero published here onChain =>
    exact .onBranch nonzero (progress.published published) here onChain
  | settled zero upTo settles =>
    exact .settled zero (progress.view.segmented _ upTo) (fun block member => progress.settles _ (settles block member))

theorem Extends.progress {client} (extends_ : before.Extends client cursor)
    (progress : Progress before after whole wholeAfter) : after.Extends client cursor := by
  obtain ⟨number, old, published, rest⟩ := extends_
  exact ⟨progress.options ▸ number, old, progress.published published, rest⟩

theorem Fetching.progress {next producer channel ahead}
    (fetching : Fetching before.view cursor next producer channel ahead)
    (progress : Progress before after whole wholeAfter) : Fetching after.view cursor next producer channel ahead := by
  cases fetching with
  | starting here => exact .starting here
  | running low count blocks reaches here => exact .running low count blocks (reaches.later progress.view) here

theorem Ready.progress {client} (ready : before.Ready whole client task)
    (progress : Progress before after whole wholeAfter) : after.Ready wholeAfter client task := by
  cases task with
  | continuing | single => exact Extends.progress ready progress
  | segments =>
    obtain ⟨settles, stores, fetching⟩ := ready
    refine ⟨fun block member => progress.settles _ (settles block member), ?_, ?_⟩
    · intro fetched isFetched i header found
      obtain ⟨number, settled⟩ := stores fetched isFetched i header found
      exact ⟨number, progress.settles _ settled⟩
    · rw [progress.options]
      exact fetching.progress progress
  | _ => trivial

theorem Ready.of_waiting {client} (waiting : task.Waiting) : delivery.Ready whole client task := by
  cases task with
  | atHead | awaitFinalized => trivial
  | _ => exact waiting.elim

/-- A change of the deployment, with or without a notification. -/
theorem Held.progress {starting} (held : Held starting before whole) (progress : Progress before after whole wholeAfter)
    (notified : before.streaming.Notified after.streaming) : Held starting after wholeAfter := by
  obtain ⟨sameStream, sameSent, task⟩ := notified
  have sameClient : after.client starting = before.client starting := by
    rw [client, client, progress.options, sameSent]
  refine ⟨?_, ?_, ?_, ?_, ?_⟩
  · rw [progress.options, sameSent]
    exact held.follows
  · rw [sameClient, progress.options]
    exact held.counted
  · rw [sameClient, sameStream]
    exact held.position
  · rw [sameClient, sameStream]
    exact held.anchored.progress progress
  · rcases task with same | waiting
    · rw [sameClient, same]
      exact held.ready.progress progress
    · exact .of_waiting waiting

end Progress

/-! ## The parts of a tick -/

variable {filter : BlockFilter}

section Ticks

variable {offered : List BlockInfo} {state whole : Building} {starting : Option Cursor}

theorem Backed.streaming (backed : Backed offered delivery state whole) (streaming : Streaming) :
    Backed offered { delivery with streaming } state whole :=
  ⟨backed.publishing, backed.canonical, backed.current, backed.was, backed.compacted, backed.head, backed.stored⟩

theorem Progress.streaming (delivery : Delivery) (whole : Building) (streaming : Streaming) :
    Progress delivery { delivery with streaming } whole whole :=
  ⟨rfl, List.Subset.refl _, ⟨rfl, rfl, rfl, fun _ upTo => upTo⟩, fun _ settled => settled⟩

theorem Backed.nonzero (backed : Backed offered delivery state whole)
    (nonzero : ∀ block ∈ offered, block.hash.isZero = false) {old} (published : old ∈ delivery.published) {number hash}
    (found : old.hashAt number = some hash) : hash.isZero = false := by
  obtain ⟨block, member, same⟩ := (backed.was old published).accepted found
  obtain rfl : block.hash = hash := congrArg Cursor.hash same
  exact nonzero block (backed.publishing.offered block member)

theorem Backed.determined (backed : Backed offered delivery state whole) (determined : Determined offered) :
    Determined delivery.chain.grown :=
  fun left leftMember right rightMember => determined left (backed.publishing.offered left leftMember) right
    (backed.publishing.offered right rightMember)

variable {streaming : Streaming}

section
variable (held : Held starting delivery whole)
include held

theorem Held.after {messages} (sent : streaming.sent = delivery.streaming.sent ++ messages)
    (follows : (delivery.client starting).Follows (startingBlock delivery.options) messages)
    (counted : ((delivery.client starting).after messages).Counted (startingBlock delivery.options))
    (position : ((delivery.client starting).after messages).position = streaming.stream.current)
    (anchored : delivery.Anchored whole ((delivery.client starting).after messages).blocks streaming.stream.current)
    (ready : delivery.Ready whole ((delivery.client starting).after messages) streaming.task) :
    Held starting { delivery with streaming } whole := by
  have received : ({ delivery with streaming } : Delivery).client starting =
      (delivery.client starting).after messages := by
    simp only [client, sent, Client.after_append]
  refine ⟨?_, received ▸ counted, received ▸ position, ?_, ?_⟩
  · simp only [sent]
    exact Client.follows_append.mpr ⟨held.follows, follows⟩
  · rw [received]
    exact anchored.progress (.streaming _ _ _)
  · rw [received]
    exact ready.progress (.streaming _ _ _)

theorem Held.streamTo (ready : delivery.Ready whole (delivery.client starting) task) :
    Held starting { delivery with streaming := { delivery.streaming with task } } whole :=
  held.after (List.append_nil _).symm trivial held.counted held.position held.anchored ready

theorem Held.data {cursor endCursor block finality production}
    (accepts : (delivery.client starting).Accepts (startingBlock delivery.options)
      (.data cursor endCursor block finality production))
    (anchored : delivery.Anchored whole ((delivery.client starting).blocks ++ [block]) (some endCursor))
    (ready : delivery.Ready whole
      ((delivery.client starting).receive (.data cursor endCursor block finality production)) task) :
    Held starting { delivery with
      streaming := delivery.streaming.advance endCursor [.data cursor endCursor block finality production] task }
      whole :=
  held.after rfl ⟨accepts, trivial⟩ (held.counted.data accepts) rfl anchored ready

theorem Held.updateFinalized {messages} (silent : ∀ cursor, messages cursor = [] ∨ messages cursor = [.finalize cursor])
    (ready : ∀ client, delivery.Ready whole client task) :
    Held starting { delivery with
      streaming := delivery.streaming.updateFinalized delivery.view messages task } whole := by
  unfold Streaming.updateFinalized
  split
  · exact held.streamTo trivial
  · rename_i finalized answered
    rcases silent finalized with none | one
    · rw [none]
      exact held.after rfl trivial held.counted held.position held.anchored (ready _)
    · rw [one]
      exact held.after rfl ⟨trivial, trivial⟩ held.counted held.position held.anchored (ready _)

/-- While the chain has the block that the stream stands on, it has the blocks of
    the client. -/
theorem Held.onChain (backed : Backed offered delivery state whole) (determined : Determined offered)
    (has : ∀ cursor, delivery.streaming.stream.current = some cursor → whole.Has cursor) :
    ∀ block ∈ (delivery.client starting).blocks, whole.hashAt block.number = some block.hash := by
  intro block member
  have below := held.counted.below_next member
  rw [held.position] at below
  have anchored := held.anchored
  generalize (delivery.client starting).blocks = blocks at anchored member
  generalize delivery.streaming.stream.current = current at anchored below has
  cases anchored with
  | nothing => cases member
  | settled zero upTo settles => exact (settles block member).2
  | onBranch nonzero published here onChain =>
    rename_i cursor old
    rcases has cursor rfl with zero | canonical
    · rw [nonzero] at zero
      cases zero
    · exact (backed.was old published).agree backed.publishing.was (backed.determined determined) here canonical
        (Nat.lt_succ_iff.mp below) (onChain block member)

end

section Moves

variable (backed : Backed offered delivery state whole) (nonzero : ∀ block ∈ offered, block.hash.isZero = false)
  (determined : Determined offered)
include backed nonzero determined

/-- The target of a reorg is on the chain that the client followed. -/
theorem Anchored.invalidate {blocks held target} (anchored : delivery.Anchored whole blocks (some held))
    (known : whole.targetOf held = some target) (foreign : whole.hashAt held.number ≠ some held.hash)
    (above : held.hash.isZero = true → whole.info.lastBlock.number < held.number) :
    delivery.Anchored whole (blocks.filter (·.number ≤ target.number)) (some target) := by
  cases anchored with
  | nothing => exact .nothing _
  | settled zero upTo =>
    have inside := backed.head _ upTo
    have outside := above zero
    omega
  | onBranch notZero published here onChain =>
    rename_i old
    obtain ⟨block, member, isBlock⟩ := (backed.was old published).accepted here
    obtain rfl : block.cursor = held := isBlock
    rcases backed.publishing.recorded.target block member with
      canonical | ⟨-, isKnown, -, ⟨earlier, was, rfl⟩, path⟩
    · exact absurd canonical foreign
    · cases isKnown.symm.trans known
      have lower := backed.publishing.recorded.first_le backed.publishing.divided.wholeWf was
      rw [backed.publishing.divided.starts] at lower
      refine .onBranch (nonzero earlier (backed.publishing.offered earlier was)) published
        ((backed.was old published).ancestor (backed.determined determined) here path lower) ?_
      exact fun kept among => onChain kept (List.mem_of_mem_filter among)

theorem Held.nextCursor (held : Held starting delivery whole)
    (stepped : delivery.streaming.nextCursor delivery.view = some streaming) :
    Held starting { delivery with streaming } whole := by
  unfold Streaming.nextCursor at stepped
  cases answered : delivery.view.canonical.getNextCursor delivery.streaming.stream.current with
  | error =>
    rw [answered] at stepped
    cases stepped
    exact held.streamTo trivial
  | ok answer =>
    have facts := backed.publishing.nextCursor_cases (backed.canonical ▸ answered)
    rw [answered] at stepped
    cases answer with
    | «continue» cursor isHead =>
      obtain ⟨canonical, number, has⟩ := facts
      simp only at stepped
      split_ifs at stepped
      · cases stepped
        exact held.streamTo trivial
      · cases stepped
        refine held.streamTo ⟨?_, whole, backed.current, canonical, held.onChain backed determined has⟩
        rw [held.position]
        exact number
    | invalidate =>
      obtain ⟨_, isCurrent, known, foreign, above⟩ := facts
      cases stepped
      have anchored := held.anchored
      have position := held.position
      rw [isCurrent] at anchored position
      exact held.after rfl ⟨trivial, trivial⟩
        (held.counted.invalidate position (backed.publishing.lower _ _ known)) rfl
        (anchored.invalidate backed nonzero determined known foreign above) trivial
    | atHead =>
      simp only at stepped
      split_ifs at stepped
      cases stepped
      exact held.streamTo trivial

omit nonzero in
theorem Held.chooseSource (held : Held starting delivery whole) {isHead}
    (task : delivery.streaming.task = .continuing cursor isHead) (steady : delivery.Steady (.stream .chooseSource)) :
    Held starting { delivery with streaming := delivery.streaming.chooseSource delivery.view cursor isHead } whole := by
  have extends_ : delivery.Extends (delivery.client starting) cursor := by
    have ready := held.ready
    rw [task] at ready
    exact ready
  unfold Streaming.chooseSource
  split
  · exact held.streamTo trivial
  · rename_i answered
    -- the segment path: the block that the stream stands on is still canonical
    have has : ∀ current, delivery.streaming.stream.current = some current → whole.Has current := by
      intro current isCurrent
      refine (steady cursor isHead current task answered isCurrent).imp id fun canonical => ?_
      rw [backed.canonical] at canonical
      exact (backed.publishing.getCanonical_inv canonical).2
    obtain ⟨segmented, isSegmented, _⟩ := ChainView.hasSegmentForBlock_true answered
    refine held.streamTo ⟨fun block member => ⟨⟨segmented, isSegmented, ?_⟩,
      held.onChain backed determined has block member⟩, fun _ none => (by cases none), .starting extends_.number.symm⟩
    have below := held.counted.below_next member
    have number := extends_.number
    omega
  · exact held.streamTo extends_

omit determined in
theorem Held.sendSingle (held : Held starting delivery whole) (member : filter ∈ delivery.streaming.stream.blockFilter)
    (always : filter.alwaysIncludeHeader = true) {isHead} (task : delivery.streaming.task = .single cursor isHead)
    (found : Bool) :
    Held starting { delivery with
      streaming := delivery.streaming.sendSingle delivery.view cursor isHead found } whole := by
  obtain ⟨number, old, published, canonical, onChain⟩ : delivery.Extends (delivery.client starting) cursor := by
    have ready := held.ready
    rw [task] at ready
    exact ready
  unfold Streaming.sendSingle
  split
  · exact held.streamTo trivial
  · split
    · exact held.streamTo trivial
    · split
      · exact held.streamTo trivial
      · rename_i hasData answered
        obtain rfl := filterFragment_always answered member always
        refine held.data ⟨number, rfl, .inl rfl⟩ ?_ trivial
        refine .onBranch (backed.nonzero nonzero published canonical) published canonical fun block among => ?_
        rcases List.mem_append.mp among with before | new
        · exact onChain block before
        · obtain rfl := List.mem_singleton.mp new
          exact canonical

end Moves

section Segments

variable {producer : SegmentTask} {channel : List SegmentAccessFetch}

theorem Fetching.produce {view : ChainView} {filters} (member : filter ∈ filters)
    (always : filter.alwaysIncludeHeader = true) (compacted : view.Compacted)
    {next capacity found ahead producerAfter channelAfter} (fetching : Fetching view cursor next producer channel ahead)
    (stepped : producer.step view filters capacity found channel = some (producerAfter, channelAfter)) :
    Fetching view cursor next producerAfter channelAfter ahead := by
  cases fetching with
  | starting =>
    obtain ⟨rfl, none, failed | ⟨first, _, reaches⟩⟩ := SegmentTask.step_starting stepped
    · subst failed
      exact .running 0 0 rfl trivial (by omega)
    · exact .running first 0 (by simp [none]) reaches (by omega)
  | running low count blocks reaches here =>
    rcases SegmentTask.step_adds member always compacted reaches stepped with ⟨rfl, rfl⟩ | ⟨more, added, further⟩
    · -- what was made but not sent is lost
      rw [blocksOf_append, ← List.append_assoc] at blocks
      obtain ⟨kept, -, isKept, -⟩ := List.range'_eq_append_iff.mp blocks.symm
      exact .running low kept (by simpa [SegmentTask.outgoing, SegmentTask.failed] using isKept) trivial here
    · refine .running low (count + more) ?_ (Nat.add_assoc _ _ _ ▸ further) here
      rw [added, ← List.append_assoc, blocks, List.range'_append_1]

/-- The first block on its way is taken; the client moves with it. -/
theorem Fetching.pop {view next nextAfter number rest}
    (fetching : Fetching view cursor next producer channel (number :: rest))
    (moved : nextAfter = max (number + 1) cursor.number) :
    next = max number cursor.number ∧ Fetching view cursor nextAfter producer channel rest := by
  cases fetching with
  | running low count blocks reaches here =>
    cases count with
    | zero => cases blocks
    | succ count =>
      rw [List.range'_succ, List.cons_append, List.cons.injEq] at blocks
      obtain ⟨rfl, following⟩ := blocks
      refine ⟨here, .running (number + 1) count following ?_ moved⟩
      rw [Nat.add_right_comm]
      exact reaches

variable (held : Held starting delivery whole)
include held

theorem Held.produce (backed : Backed offered delivery state whole)
    (member : filter ∈ delivery.streaming.stream.blockFilter) (always : filter.alwaysIncludeHeader = true) {access}
    (task : delivery.streaming.task = .segments cursor producer channel access)
    {capacity found producerAfter channelAfter}
    (stepped : producer.step delivery.view delivery.streaming.stream.blockFilter capacity found channel =
      some (producerAfter, channelAfter)) :
    Held starting { delivery with
      streaming := { delivery.streaming with task := .segments cursor producerAfter channelAfter access } } whole := by
  have ready := held.ready
  rw [task] at ready
  obtain ⟨settles, stores, fetching⟩ := ready
  exact held.streamTo ⟨settles, stores, fetching.produce member always backed.compacted stepped⟩

theorem Held.receive (backed : Backed offered delivery state whole)
    (task : delivery.streaming.task = .segments cursor producer channel none) {found}
    (stepped : delivery.streaming.receive delivery.segments cursor producer found channel = some streaming) :
    Held starting { delivery with streaming } whole := by
  have ready := held.ready
  rw [task] at ready
  obtain ⟨settles, -, fetching⟩ := ready
  cases channel with
  | nil =>
    simp only [Streaming.receive] at stepped
    split at stepped
    · cases stepped
      exact held.streamTo trivial
    · cases stepped
  | cons =>
    simp only [Streaming.receive] at stepped
    split at stepped
    · rename_i headers isFound stored
      cases stepped
      refine held.streamTo ⟨settles, ?_, ?_⟩
      · rintro fetched ⟨⟩
        exact backed.stored _ _ stored
      · cases fetching with
        | running low count blocks reaches here =>
          exact .running low count (by simpa using blocks) reaches here
    · cases stepped
      exact held.streamTo trivial

theorem Held.deliver (member : filter ∈ delivery.streaming.stream.blockFilter)
    (always : filter.alwaysIncludeHeader = true) {access}
    (task : delivery.streaming.task = .segments cursor producer channel (some access)) :
    Held starting { delivery with
      streaming := delivery.streaming.deliver cursor producer channel access } whole := by
  have ready := held.ready
  rw [task] at ready
  obtain ⟨settles, stores, fetching⟩ := ready
  obtain ⟨firstBlock, blocks, _⟩ := access
  have stored := stores _ rfl
  simp only [Option.elim_some] at fetching
  cases blocks with
  | nil => exact held.streamTo ⟨settles, fun _ none => (by cases none), fetching⟩
  | cons number =>
    simp only [Streaming.deliver]
    split
    · exact held.streamTo trivial
    · rename_i inside
      have endNumber : firstBlock + (number - firstBlock) = number := by omega
      simp only [endNumber, Cursor.newFinalized]
      split
      · -- the block is before the one to stream from
        rename_i early
        have popped := fetching.pop rfl
        have skipped : max number cursor.number = max (number + 1) cursor.number := by omega
        refine held.streamTo ⟨settles, ?_, ?_⟩
        · rintro fetched ⟨⟩
          exact stored
        · rw [popped.1, skipped]
          exact popped.2
      · rename_i reached
        split
        · exact held.streamTo trivial
        · rename_i block isBlock
          split
          · exact held.streamTo trivial
          · rename_i hasData answered
            obtain rfl := filterFragment_always answered member always
            obtain ⟨here, next⟩ := fetching.pop (show number + 1 = max (number + 1) cursor.number by omega)
            obtain ⟨isNumber, settled⟩ := stored _ block isBlock
            rw [endNumber] at isNumber
            have settlesAll : ∀ other ∈ (delivery.client starting).blocks ++ [block],
                delivery.view.Settles whole other := by
              intro other among
              rcases List.mem_append.mp among with before | new
              · exact settles other before
              · obtain rfl := List.mem_singleton.mp new
                exact settled
            refine held.data ⟨?_, isNumber, .inr rfl⟩ (.settled rfl (isNumber ▸ settled.1) settlesAll)
              ⟨settlesAll, ?_, next⟩
            · rw [here]
              simp only
              omega
            · rintro fetched ⟨⟩
              exact stored

end Segments

theorem Held.stream (held : Held starting delivery whole) (backed : Backed offered delivery state whole)
    (nonzero : ∀ block ∈ offered, block.hash.isZero = false) (determined : Determined offered)
    (member : filter ∈ delivery.streaming.stream.blockFilter) (always : filter.alwaysIncludeHeader = true) {move}
    (steady : delivery.Steady (.stream move))
    (stepped : delivery.streaming.step delivery.view delivery.segments move = some streaming) :
    Held starting { delivery with streaming } whole := by
  cases move with
  | nextCursor =>
    simp only [Streaming.step] at stepped
    split at stepped
    · exact held.nextCursor backed nonzero determined stepped
    · cases stepped
  | chooseSource =>
    simp only [Streaming.step] at stepped
    split at stepped
    · rename_i cursor isHead task
      cases stepped
      exact held.chooseSource backed determined task steady
    · cases stepped
  | headChanged =>
    simp only [Streaming.step] at stepped
    split at stepped
    · cases stepped
      exact held.streamTo trivial
    · cases stepped
  | finalizedChanged =>
    simp only [Streaming.step] at stepped
    split at stepped
    · cases stepped
      exact held.updateFinalized (fun _ => .inl rfl) (fun _ => trivial)
    · cases stepped
      exact held.updateFinalized (fun _ => .inr rfl) (fun _ => trivial)
    · cases stepped
  | sendSingle found =>
    simp only [Streaming.step] at stepped
    split at stepped
    · rename_i cursor isHead task
      cases stepped
      exact held.sendSingle backed nonzero member always task found
    · cases stepped
  | produce =>
    simp only [Streaming.step] at stepped
    split at stepped
    · rename_i cursor producer channel access task
      obtain ⟨⟨_, _⟩, produced, rfl⟩ := Option.map_eq_some_iff.mp stepped
      exact held.produce backed member always task produced
    · cases stepped
  | joined =>
    simp only [Streaming.step] at stepped
    split at stepped
    · cases stepped
      exact held
    · cases stepped
      exact held.streamTo trivial
    · cases stepped
  | receive =>
    simp only [Streaming.step] at stepped
    split at stepped
    · rename_i cursor producer channel task
      exact held.receive backed task stepped
    · cases stepped
  | deliver =>
    simp only [Streaming.step] at stepped
    split at stepped
    · rename_i cursor producer channel access task
      cases stepped
      exact held.deliver member always task
    · cases stepped

end Ticks

/-! ## Runs -/

def Sound (offered : List BlockInfo) (starting : Option Cursor) (delivery : Delivery) : Prop :=
  (∃ filter ∈ delivery.streaming.stream.blockFilter, filter.alwaysIncludeHeader = true) ∧
    ∃ state whole, Backed offered delivery state whole ∧ Held starting delivery whole

variable {offered : List BlockInfo}

theorem start_sound (options : IngestionServiceOptions) {first : BlockInfo} (finalized segmentSize groupSize : Nat)
    {stream : DataStream} (isFirst : first.number = startingBlock options) (isOffered : first ∈ offered)
    (member : filter ∈ stream.blockFilter) (always : filter.alwaysIncludeHeader = true) :
    Sound offered stream.current (start options first finalized segmentSize groupSize stream) := by
  have publishing := Publishing.start isFirst isOffered
  refine ⟨⟨filter, member, always⟩, _, _, ⟨publishing, rfl, List.mem_singleton_self _, ?_, ?_, ?_, ?_⟩,
    ⟨trivial, .start _ _, rfl, .nothing _, trivial⟩⟩
  · intro old isOld
    obtain rfl := List.mem_singleton.mp isOld
    exact publishing.was
  · exact ⟨fun _ none => (by cases none), fun _ none => (by cases none), fun _ none => (by cases none)⟩
  · rintro number ⟨_, none, -⟩
    cases none
  · intro start headers none
    cases none

variable {starting : Option Cursor}

section
variable (sound : Sound offered starting delivery)
include sound

section
variable (nonzero : ∀ block ∈ offered, block.hash.isZero = false) (determined : Determined offered)
include nonzero determined

theorem Sound.step {after} {input : DeliveryInput} (isOffered : ∀ block ∈ input.offers, block ∈ offered)
    (steady : delivery.Steady input) (stepped : delivery.step input = some after) : Sound offered starting after := by
  obtain ⟨⟨filter, member, always⟩, state, whole, backed, held⟩ := sound
  cases input with
  | publish =>
    obtain ⟨stateAfter, wholeAfter, backedAfter, progress, notified⟩ := backed.publish nonzero
      (fun block grown => isOffered block (List.mem_filterMap.mpr ⟨_, grown, rfl⟩)) stepped
    exact ⟨⟨filter, notified.stream ▸ member, always⟩, stateAfter, wholeAfter, backedAfter,
      held.progress progress notified⟩
  | segmented =>
    obtain ⟨backedAfter, progress, notified⟩ := backed.segmented steady stepped
    exact ⟨⟨filter, notified.stream ▸ member, always⟩, state, whole, backedAfter, held.progress progress notified⟩
  | grouped =>
    obtain ⟨backedAfter, progress, notified⟩ := backed.grouped stepped
    exact ⟨⟨filter, notified.stream ▸ member, always⟩, state, whole, backedAfter, held.progress progress notified⟩
  | finalized =>
    obtain ⟨backedAfter, progress, notified⟩ := backed.finalized stepped
    exact ⟨⟨filter, notified.stream ▸ member, always⟩, state, whole, backedAfter, held.progress progress notified⟩
  | stream =>
    obtain ⟨streaming, moved, rfl⟩ := Option.map_eq_some_iff.mp stepped
    exact ⟨⟨filter, (Streaming.step_filter moved).symm ▸ member, always⟩, state, whole, backed.streaming _,
      held.stream backed nonzero determined member always steady moved⟩

theorem Sound.run {after inputs} (isOffered : ∀ input ∈ inputs, ∀ block ∈ input.offers, block ∈ offered)
    (steady : Runs.Meets Delivery.step Steady delivery inputs)
    (reached : Runs.run Delivery.step delivery inputs = some after) : Sound offered starting after := by
  induction inputs generalizing delivery with
  | nil =>
    cases reached
    exact sound
  | cons input rest ih =>
    obtain ⟨next, stepped, later⟩ := Option.bind_eq_some_iff.mp reached
    refine ih ?_ (fun other member => isOffered other (List.mem_cons_of_mem _ member)) (steady.2 next stepped) later
    exact sound.step nonzero determined (isOffered input List.mem_cons_self) steady.1 stepped

end

theorem Sound.delivered (determined : Determined offered) : delivery.Delivered starting := by
  obtain ⟨-, _, whole, backed, held⟩ := sound
  refine ⟨held.follows, held.counted, ?_, fun _ answered => ?_⟩
  · have anchored := held.anchored
    generalize (delivery.client starting).blocks = blocks at anchored
    generalize delivery.streaming.stream.current = current at anchored
    cases anchored with
    | nothing => exact ⟨whole, backed.current, fun _ none => (by cases none)⟩
    | onBranch nonzero published here onChain => exact ⟨_, published, onChain⟩
    | settled zero upTo settles => exact ⟨whole, backed.current, fun block member => (settles block member).2⟩
  · rw [backed.canonical] at answered
    obtain ⟨_, isCurrent, top, has⟩ := backed.publishing.nextCursor_cases answered
    have onChain := held.onChain backed determined (fun cursor same => by
      cases isCurrent.symm.trans same
      exact has)
    have next := held.counted.next
    rw [held.position, isCurrent, Client.nextNumber, Option.elim_some] at next
    refine ⟨?_, fun block member => ?_⟩
    · rw [backed.getHead, ← top]
      exact next.symm
    · rw [backed.canonical]
      exact backed.publishing.getCanonical (onChain block member)

end

/-- Delivery is gap-free under reorgs: in every steady run, in which hashes are not
    zero and identify their blocks, the client of a stream that wants all headers
    is sent every block once and in order, holds part of a chain that was published,
    and has the whole chain from its start when the stream is at the head. -/
theorem delivered_of_steady (options : IngestionServiceOptions) {first : BlockInfo}
    {finalized segmentSize groupSize : Nat} {stream : DataStream} {inputs : List DeliveryInput} {delivery : Delivery}
    (isFirst : first.number = startingBlock options)
    (always : ∃ filter ∈ stream.blockFilter, filter.headerFilter = .always)
    (nonzero : ∀ block ∈ first :: inputs.flatMap (·.offers), block.hash.isZero = false)
    (determined : Determined (first :: inputs.flatMap (·.offers)))
    (steady : Runs.Meets step Steady (start options first finalized segmentSize groupSize stream) inputs)
    (reached : Runs.run step (start options first finalized segmentSize groupSize stream) inputs = some delivery) :
    delivery.Delivered stream.current := by
  obtain ⟨filter, member, isAlways⟩ := always
  have started : Sound (first :: inputs.flatMap (·.offers)) stream.current
      (start options first finalized segmentSize groupSize stream) :=
    start_sound options finalized segmentSize groupSize isFirst List.mem_cons_self member
      (by rw [BlockFilter.alwaysIncludeHeader, isAlways]; rfl)
  refine (started.run nonzero determined (fun input among block offered => ?_) steady reached).delivered determined
  exact List.mem_cons_of_mem _ (List.mem_flatMap.mpr ⟨input, among, offered⟩)

end Delivery

namespace RacingReorg

def options : IngestionServiceOptions := ⟨1, 100, 1, none⟩

/-- A client that wants all headers, from the first block on. -/
def stream : DataStream :=
  { blockFilter := [⟨.always, fun _ => .ok [], fun _ => .ok false⟩]
    current := none
    finalized := ⟨0, ⟨[1]⟩⟩
    finality := .accepted
    prefetchSegmentCount := 1 }

def first : BlockInfo := ⟨0, ⟨[1]⟩, ⟨[]⟩⟩

def opened : Delivery := .start options first 0 2 1 stream

def single : List DeliveryInput :=
  [.stream .nextCursor, .stream .chooseSource, .stream (.sendSingle true)]

/-- The first segment after the task asked for it. -/
def segment : List DeliveryInput :=
  [.stream .chooseSource, .stream (.produce true), .stream (.produce true), .stream (.produce true),
    .stream (.produce true), .stream (.receive true), .stream .deliver]

/-- Blocks 1 and 2 are replaced, and segmented, after the stream computed block 2
    as its next cursor and before it asked for a segment. -/
def race : List DeliveryInput :=
  [.publish [.grow ⟨1, ⟨[2]⟩, ⟨[1]⟩⟩, .grow ⟨2, ⟨[3]⟩, ⟨[2]⟩⟩]] ++ single ++ single ++
    [.stream .nextCursor,
      .publish [.shrink ⟨0, ⟨[1]⟩⟩, .grow ⟨1, ⟨[4]⟩, ⟨[1]⟩⟩, .grow ⟨2, ⟨[5]⟩, ⟨[4]⟩⟩, .grow ⟨3, ⟨[6]⟩, ⟨[5]⟩⟩,
        .grow ⟨4, ⟨[7]⟩, ⟨[6]⟩⟩],
      .finalized 4, .segmented 1, .segmented 3] ++ segment

/-- The first block is sent alone, the second one from its segment, the third one alone.
    Then the third one is replaced while the stream is between two ticks. -/
def calm : List DeliveryInput :=
  [.publish [.grow ⟨1, ⟨[2]⟩, ⟨[1]⟩⟩, .grow ⟨2, ⟨[3]⟩, ⟨[2]⟩⟩]] ++ single ++ [.segmented 1, .stream .nextCursor] ++ segment ++
    [.stream .deliver, .stream .deliver, .stream (.produce true), .stream (.receive true)] ++ single ++
    [.publish [.shrink ⟨1, ⟨[2]⟩⟩, .grow ⟨2, ⟨[4]⟩, ⟨[2]⟩⟩], .stream .nextCursor] ++ single

/-- The block that the stream stands on is canonical, or its hash is zero. -/
def standsOnCanonical (delivery : Delivery) : DeliveryInput → Bool
  | .segmented block => block + 1 < 2 ^ 32
  | .stream .chooseSource =>
    delivery.streaming.stream.current.all fun held =>
      held.hash.isZero || delivery.view.canonical.getCanonical held.number = .ok (.canonical held)
  | _ => true

end RacingReorg

open RacingReorg

/-- The client holds block 2 of the new chain after block 1 of the old one. -/
theorem Delivery.delivered_fails_race :
    ∃ delivery, Runs.run Delivery.step opened race = some delivery ∧
      (delivery.client stream.current).blocks = [⟨0, ⟨[1]⟩⟩, ⟨1, ⟨[2]⟩⟩, ⟨2, ⟨[5]⟩⟩] ∧
      ¬ delivery.Delivered stream.current := by
  obtain ⟨delivery, reached, blocks, published⟩ :
      ∃ delivery, Runs.run Delivery.step opened race = some delivery ∧
        (delivery.client stream.current).blocks = [⟨0, ⟨[1]⟩⟩, ⟨1, ⟨[2]⟩⟩, ⟨2, ⟨[5]⟩⟩] ∧
        delivery.published.all (fun whole => whole.hashAt 1 != some ⟨[2]⟩ || whole.hashAt 2 != some ⟨[5]⟩) = true :=
    ⟨_, rfl, rfl, rfl⟩
  refine ⟨delivery, reached, blocks, fun delivered => ?_⟩
  obtain ⟨whole, member, onChain⟩ := delivered.published
  rw [blocks] at onChain
  have one := onChain ⟨1, ⟨[2]⟩⟩ (by simp)
  have two := onChain ⟨2, ⟨[5]⟩⟩ (by simp)
  simpa [one, two] using List.all_eq_true.mp published whole member

theorem Delivery.delivered_of_steady_calm :
    ∃ delivery, Runs.run Delivery.step opened calm = some delivery ∧
      (delivery.client stream.current).blocks = [⟨0, ⟨[1]⟩⟩, ⟨1, ⟨[2]⟩⟩, ⟨2, ⟨[4]⟩⟩] ∧
      .invalidate ⟨1, ⟨[2]⟩⟩ ∈ delivery.streaming.sent ∧ delivery.Delivered stream.current := by
  have steady : Runs.Meets Delivery.step Delivery.Steady opened calm := by
    have checked : Runs.checks Delivery.step standsOnCanonical opened calm = true := rfl
    refine .of_checks (fun delivery input stands => ?_) checked
    unfold Delivery.Steady
    split
    · simpa [standsOnCanonical] using stands
    · intro cursor isHead held _ _ isHeld
      simpa [standsOnCanonical, isHeld] using stands
    · trivial
  have nonzero : ∀ block ∈ first :: calm.flatMap (·.offers), block.hash.isZero = false := by decide
  have determined : Determined (first :: calm.flatMap (·.offers)) := by
    unfold Determined
    decide
  exact ⟨_, rfl, rfl, by decide, Delivery.delivered_of_steady RacingReorg.options rfl
    ⟨_, List.mem_singleton_self _, rfl⟩ nonzero determined steady rfl⟩

end Starkstream
