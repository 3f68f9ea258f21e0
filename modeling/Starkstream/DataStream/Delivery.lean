import Starkstream.ChainView.Publication
import Starkstream.DataStream.Client
import Starkstream.DataStream.Fetches

/-! # Delivery under reorgs

The chain view changes while a stream runs: ingestion publishes chains, and
compaction stores segments and moves the segmented and the grouped block.  A run
interleaves these changes with the parts of the ticks of one stream in any order.

The stream computes the next cursor in one look at the view and asks for a
segment in another.  If the chain is reorged and segmented in between, the block
of a segment is sent after a block that is no longer canonical.  When that does
not happen, and block numbers fit into 32 bits, the client always holds a
contiguous part of a chain that was published.
-/

namespace Starkstream

open CanonicalChainBuilder
open IngestionService

structure Delivery where
  options : IngestionServiceOptions
  /-- The builder of ingestion. -/
  chain : ChainRun
  /-- History: the unsplit chains that were published. -/
  published : List Building
  view : ChainView
  /-- The segments that compaction stored, by their first block. -/
  segments : Nat → Option (List Cursor)
  streaming : Streaming

inductive DeliveryInput where
  /-- Ingestion calls the builder and publishes the chain. -/
  | publish (ops : List BuilderOp)
  | segmented (block : Nat)
  | grouped (block : Nat)
  | finalized (block : Nat)
  | stream (move : Move)
  deriving DecidableEq

/-- The blocks that an input offers to the builder. -/
def DeliveryInput.offers : DeliveryInput → List BlockInfo
  | .publish ops => ops.filterMap fun
      | .grow block => some block
      | _ => none
  | _ => []

/-- `block` is the last one of a unit of `size` blocks. -/
def ChainView.boundary (view : ChainView) (size block : Nat) : Bool :=
  0 < size && view.canonical.startingBlock ≤ block && (block + 1 - view.canonical.startingBlock) % size == 0

/-- The headers of the segment with the given first block. -/
def ChainView.segmentHeaders (view : ChainView) (start : Nat) : List Cursor :=
  (List.range view.segmentSize).map fun i => (view.cursorAt (start + i)).toOption.getD default

namespace Delivery

/-- A deployment that published its first block, and a new stream. -/
def start (options : IngestionServiceOptions) (first : BlockInfo) (finalized segmentSize groupSize : Nat)
    (stream : DataStream) : Delivery :=
  let chain : ChainRun := ⟨.building (.single first), [], [first], .building (.single first)⟩
  { options
    chain
    published := [.single first]
    view := .new finalized none none segmentSize groupSize (readerOf options chain (Building.single first).snapshot)
    segments := fun _ => none
    streaming := ⟨stream, .idle, []⟩ }

def publish (delivery : Delivery) (ops : List BuilderOp) : Option Delivery :=
  if ops.all (·.allowed delivery.options delivery.view.segmented) then
    (Runs.run ChainRun.step delivery.chain ops).bind fun chain =>
      match chain.builder, chain.unsplit with
      | .building state, .building whole =>
        some { delivery with
          chain
          published := delivery.published ++ [whole]
          view := { delivery.view with canonical := readerOf delivery.options chain state.snapshot }
          streaming := delivery.streaming.notifyHead }
      | _, _ => none
  else none

/-- Compaction stores the segments up to `block`. -/
def storeSegments (delivery : Delivery) (block start : Nat) : Option (List Cursor) :=
  let view := delivery.view
  if view.canonical.startingBlock ≤ start ∧ (start - view.canonical.startingBlock) % view.segmentSize = 0 ∧
      start + view.segmentSize ≤ block + 1 ∧ delivery.segments start = none then
    some (view.segmentHeaders start)
  else delivery.segments start

/-- The changes of the view and the parts of the ticks.  Segments are made of the
    canonical chain, and the segmented and the grouped block are the last ones of
    a segment and of a group and never move back. -/
def step (delivery : Delivery) : DeliveryInput → Option Delivery
  | .publish ops => delivery.publish ops
  | .segmented block =>
    if delivery.view.boundary delivery.view.segmentSize block ∧ delivery.view.segmented.all (· ≤ block) ∧
        block ≤ delivery.view.canonical.getHead.number then
      some { delivery with
        view := delivery.view.setSegmentedBlock block
        segments := delivery.storeSegments block }
    else none
  | .grouped block =>
    if delivery.view.boundary (delivery.view.groupSize * delivery.view.segmentSize) block ∧
        delivery.view.grouped.all (· ≤ block) ∧ delivery.view.segmented.any (block ≤ ·) then
      some { delivery with view := delivery.view.setGroupedBlock block }
    else none
  | .finalized block =>
    some { delivery with
      view := delivery.view.setFinalizedBlock block
      streaming := delivery.streaming.notifyFinalized }
  | .stream move =>
    (delivery.streaming.step delivery.view delivery.segments move).map fun streaming =>
      { delivery with streaming }

/-- The client of a stream that was opened at `starting`. -/
def client (delivery : Delivery) (starting : Option Cursor) : Client :=
  (Client.start (startingBlock delivery.options) starting).after delivery.streaming.sent

/-- What a client that started at `starting` can rely on. -/
structure Delivered (starting : Option Cursor) (delivery : Delivery) : Prop where
  /-- Every `Data` message is for the block after the position of the client. -/
  gapFree : (Client.start (startingBlock delivery.options) starting).Follows
    (startingBlock delivery.options) delivery.streaming.sent
  /-- The blocks held are contiguous, up to the position of the client. -/
  contiguous : (delivery.client starting).Counted (startingBlock delivery.options)
  /-- They are part of one chain that was published. -/
  published : ∃ whole ∈ delivery.published,
    ∀ block ∈ (delivery.client starting).blocks, whole.hashAt block.number = some block.hash
  /-- A stream that finds itself at the head has sent every canonical block. -/
  atHead : delivery.streaming.task = .idle →
    delivery.view.canonical.getNextCursor delivery.streaming.stream.current = .ok .atHead →
    (delivery.client starting).first + (delivery.client starting).blocks.length =
        delivery.view.canonical.getHead.number + 1 ∧
    ∀ block ∈ (delivery.client starting).blocks,
      delivery.view.canonical.getCanonical block.number = .ok (.canonical block)

/-- The input does not hit one of the two gaps: when the stream finds a segment
    for its next block, the block it stands on is still canonical; and the blocks
    of segments have numbers that fit into 32 bits. -/
def Steady (delivery : Delivery) : DeliveryInput → Prop
  | .segmented block => block + 1 < 2 ^ 32
  | .stream .chooseSource => ∀ cursor isHead held, delivery.streaming.task = .continuing cursor isHead →
      delivery.view.hasSegmentForBlock cursor.number = .ok true → delivery.streaming.stream.current = some held →
      held.hash.isZero = true ∨ delivery.view.canonical.getCanonical held.number = .ok (.canonical held)
  | _ => True

end Delivery

end Starkstream
