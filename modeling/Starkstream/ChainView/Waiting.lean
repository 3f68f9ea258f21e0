import Starkstream.DataStream.Stream
import Starkstream.Lib.Notify

/-! # Tasks that wait for the chain view

The loops that read the view, decide that there is nothing to do and wait for a
change: a data stream at the head or ahead of the finalized block, and the two
compaction services.  Every call of the view takes its lock once and is a step of
its own; a wait registers in a later step than the reads that led to it.

A loop relies on a value from the moment it read it until it has a future for its
changes.  While no such value is set in between, a parked task waits for a reason
that still holds.  What a stream sends is left to the model of its ticks: here a
delivery only moves its cursor.
-/

namespace Starkstream

open Notify

/-- The `Notify` objects of the view. -/
inductive Channel where
  | head
  | finalized
  | segmented
  | pending
  deriving DecidableEq

inductive Setter where
  | recent (segment : CanonicalChainSegment)
  | finalizedBlock (block : Nat)
  | pendingGeneration (generation : Option Nat)
  | segmentedBlock (block : Nat)
  | groupedBlock (block : Nat)

def Setter.channel : Setter → Option Channel
  | .recent _ => some .head
  | .finalizedBlock _ => some .finalized
  | .pendingGeneration _ => some .pending
  | .segmentedBlock _ => some .segmented
  | .groupedBlock _ => none

namespace ChainView

def set (view : ChainView) : Setter → ChainView
  | .recent segment => view.setRecent segment
  | .finalizedBlock block => view.setFinalizedBlock block
  | .pendingGeneration generation => view.setPendingGeneration generation
  | .segmentedBlock block => view.setSegmentedBlock block
  | .groupedBlock block => view.setGroupedBlock block

def getStartingCursor (view : ChainView) : Outcome ChainViewError Cursor :=
  view.cursorAt view.canonical.startingBlock

end ChainView

/-! ## Data streams -/

inductive StreamPhase where
  | idle
  /-- In `tick_single` or `tick_segment_stream`. -/
  | delivering
  /-- In `tick_at_head_pending`, before `get_pending_generation`. -/
  | readGeneration
  /-- In `tick_at_head_pending`, with the generation that was read. -/
  | sendPending (generation : Option Nat)
  /-- In the `select!` at the head. -/
  | atHead (wait : Wait Channel)
  /-- The finalized block changed while the stream was at the head. -/
  | refreshAtHead
  /-- The next block is after the finalized block. -/
  | awaitFinalized (next : Cursor) (wait : Wait Channel)
  | refreshFinalized
  | ended

structure StreamLoop where
  finality : DataFinality
  current : Option Cursor
  /-- The stream's own copy of the finalized cursor. -/
  finalized : Cursor
  phase : StreamPhase
  /-- The arguments of the calls of `send_pending_block`. -/
  used : List (Cursor × Nat)

namespace StreamLoop

variable (view : ChainView) (loop : StreamLoop)

def enter (phase : StreamPhase) : StreamLoop := { loop with phase }

/-- What the stream waits for at the head, in the order of the branches. -/
def channels : List Channel :=
  if loop.finality = .pending then [.head, .finalized, .pending] else [.head, .finalized]

/-- `tick` up to the first wait. -/
def tick : StreamLoop :=
  match view.canonical.getNextCursor loop.current with
  | .error _ => loop.enter .ended
  | .ok (.continue cursor _) =>
    if loop.finality = .finalized ∧ cursor.strictAfter loop.finalized then
      loop.enter (.awaitFinalized cursor (.on [.finalized]))
    else loop.enter .delivering
  | .ok (.invalidate cursor) => { loop with current := some cursor }
  | .ok .atHead =>
    if loop.finality = .pending then loop.enter .readGeneration
    else loop.enter (.atHead (.on loop.channels))

/-- `get_finalized_cursor` after a change of the finalized block. -/
def refresh (phase : StreamPhase) : StreamLoop :=
  match view.getFinalizedCursor with
  | .error _ => loop.enter .ended
  | .ok finalized => { loop with finalized, phase }

/-- The call of `send_pending_block`, if there is a generation and a cursor. -/
def sendPending (generation : Option Nat) : StreamLoop :=
  { loop with
    phase := .atHead (.on loop.channels)
    used := loop.used ++ (loop.current.bind fun head => generation.map (head, ·)).toList }

/-- The next read of the view, or the call that follows it. -/
def proceed : Option StreamLoop :=
  match loop.phase with
  | .idle => some (loop.tick view)
  | .readGeneration => some (loop.enter (.sendPending view.pendingGeneration))
  | .sendPending generation => some (loop.sendPending generation)
  | .refreshAtHead => some (loop.refresh view (.atHead (.on loop.channels)))
  | .refreshFinalized => some (loop.refresh view .idle)
  | _ => none

/-- The branch of the `select!` that is taken.  The one of `tick_at_head_pending`
    is biased. -/
def wake (channel : Channel) : Option StreamLoop :=
  match loop.phase, channel with
  | .atHead wait, .head => if .head ∈ wait.notified then some (loop.enter .idle) else none
  | .atHead wait, .finalized =>
    if .finalized ∈ wait.notified ∧ ¬ (loop.finality = .pending ∧ .head ∈ wait.notified) then
      some (loop.enter .refreshAtHead)
    else none
  | .atHead wait, .pending =>
    if .pending ∈ wait.notified ∧ .head ∉ wait.notified ∧ .finalized ∉ wait.notified then
      some (loop.enter .readGeneration)
    else none
  | .awaitFinalized _ wait, .finalized =>
    if .finalized ∈ wait.notified then some (loop.enter .refreshFinalized) else none
  | _, _ => none

end StreamLoop

/-! ## Compaction services -/

inductive SegmentPhase where
  | start
  | noSegment
  | segmented (cursor : Cursor)
  | next (first : Cursor)
  | gotHead (first head : Cursor)
  | compacting (first : Cursor)
  | waiting (first : Cursor) (wait : Wait Channel)
  | ended

/-- The next cursor of `SegmentService` and `SegmentGroupService`. -/
def followingCursor (view : ChainView) (cursor : Cursor) : Option Cursor :=
  match view.canonical.getNextCursor (some cursor) with
  | .ok (.continue next _) => some next
  | _ => none

section
variable {view : ChainView}

theorem followingCursor_number {cursor next} (following : followingCursor view cursor = some next) :
    next.number = cursor.number + 1 := by
  unfold followingCursor at following
  split at following
  case _ answered =>
    cases following
    obtain ⟨segment, -, inSegment⟩ := bind_eq_ok.mp answered
    obtain ⟨reconnected, -, decided⟩ := bind_eq_ok.mp inSegment
    cases reconnected with
    | «continue» =>
      simp only at decided
      split_ifs at decided
      · cases decided
      · obtain ⟨_, looked, same⟩ := bind_eq_ok.mp decided
        obtain ⟨rfl, -⟩ := NextCursor.continue.inj (Except.ok.inj same)
        obtain ⟨_, -, found⟩ := bind_eq_ok.mp looked
        exact CanonicalChainSegment.canonicalAt_number (Outcome.changeContext_eq_ok.mp found)
    | offlineReorg | unknown => cases decided
  · cases following

/-- `SegmentService::start`, one call of the view at a time. -/
def SegmentPhase.proceed (view : ChainView) (segmentSize : Nat) : SegmentPhase → Option SegmentPhase
  | .start =>
    match view.getSegmentedCursor with
    | .error _ => some .ended
    | .ok none => some .noSegment
    | .ok (some cursor) => some (.segmented cursor)
  | .noSegment => some (view.getStartingCursor.toOption.elim .ended .next)
  | .segmented cursor => some ((followingCursor view cursor).elim .ended .next)
  | .next first => some (.gotHead first view.canonical.getHead)
  | .gotHead first head =>
    match view.getFinalizedCursor with
    | .error _ => some .ended
    | .ok finalized =>
      let latestAvailable := min finalized.number head.number
      if first.number + segmentSize ≤ latestAvailable then some (.compacting first)
      else if finalized.number < head.number then some (.waiting first (.on [.finalized]))
      else some (.waiting first (.on [.head]))
  | _ => none

inductive GroupPhase where
  | start
  | noGroup
  | grouped (cursor : Cursor)
  | next (first : Cursor)
  | compacting (first : Cursor)
  | waiting (first : Cursor) (wait : Wait Channel)
  | ended

/-- `SegmentGroupService::start`, one call of the view at a time. -/
def GroupPhase.proceed (view : ChainView) (blocksInGroup : Nat) : GroupPhase → Option GroupPhase
  | .start =>
    match view.getGroupedCursor with
    | .error _ => some .ended
    | .ok none => some .noGroup
    | .ok (some cursor) => some (.grouped cursor)
  | .noGroup => some (view.getStartingCursor.toOption.elim .ended .next)
  | .grouped cursor => some ((followingCursor view cursor).elim .ended .next)
  | .next first =>
    match view.getSegmentedCursor with
    | .error _ => some .ended
    | .ok none => some (.waiting first (.on [.segmented]))
    | .ok (some segmented) =>
      if first.number + blocksInGroup ≤ segmented.number then some (.compacting first)
      else some (.waiting first (.on [.segmented]))
  | _ => none

/-! ## Interleavings -/

inductive Loop where
  | stream (loop : StreamLoop)
  | segment (segmentSize : Nat) (phase : SegmentPhase)
  | group (blocksInGroup : Nat) (phase : GroupPhase)

inductive LoopMove where
  | proceed
  /-- A delivery of the stream moves its cursor, and may be its last one. -/
  | deliver (cursor : Cursor) (last : Bool)
  /-- A segment or group was written. -/
  | compacted
  /-- `notified()` on a channel. -/
  | create (channel : Channel)
  | wake (channel : Channel)

namespace Loop

def wait : Loop → Option (Wait Channel)
  | .stream loop =>
    match loop.phase with
    | .atHead wait => some wait
    | .awaitFinalized _ wait => some wait
    | _ => none
  | .segment _ (.waiting _ wait) => some wait
  | .group _ (.waiting _ wait) => some wait
  | _ => none

def withWait (wait : Wait Channel) : Loop → Loop
  | .stream loop =>
    match loop.phase with
    | .atHead _ => .stream (loop.enter (.atHead wait))
    | .awaitFinalized next _ => .stream (loop.enter (.awaitFinalized next wait))
    | _ => .stream loop
  | .segment size (.waiting first _) => .segment size (.waiting first wait)
  | .group size (.waiting first _) => .group size (.waiting first wait)
  | loop => loop

def notify (loop : Loop) (channel : Option Channel) : Loop :=
  loop.wait.elim loop fun wait => loop.withWait (wait.notify channel)

def step (view : ChainView) (loop : Loop) : LoopMove → Option Loop
  | .proceed =>
    match loop with
    | .stream loop => (loop.proceed view).map .stream
    | .segment size phase => (phase.proceed view size).map (.segment size)
    | .group size phase => (phase.proceed view size).map (.group size)
  | .deliver cursor last =>
    match loop with
    | .stream loop =>
      match loop.phase with
      | .delivering =>
        some (.stream { loop with current := some cursor, phase := if last then .idle else .delivering })
      | _ => none
    | _ => none
  | .compacted =>
    match loop with
    | .segment size (.compacting _) => some (.segment size .start)
    | .group size (.compacting _) => some (.group size .start)
    | _ => none
  | .create channel => loop.wait.bind fun wait => (wait.create channel).map loop.withWait
  | .wake channel =>
    match loop with
    | .stream loop => (loop.wake channel).map .stream
    | .segment size (.waiting _ wait) => if channel ∈ wait.notified then some (.segment size .start) else none
    | .group size (.waiting _ wait) => if channel ∈ wait.notified then some (.group size .start) else none
    | _ => none

end Loop

/-- The view and a task that reads it. -/
structure Watching where
  view : ChainView
  loop : Loop

inductive WatchingInput where
  | set (setter : Setter)
  | move (move : LoopMove)

namespace Watching

def step (watching : Watching) : WatchingInput → Option Watching
  | .set setter => some ⟨watching.view.set setter, watching.loop.notify setter.channel⟩
  | .move move => (watching.loop.step watching.view move).map fun loop => { watching with loop }

end Watching

/-! ## Reasons to wait -/

/-- The cursor of the stream is the last block of the recent segment. -/
def AtHead (current : Option Cursor) (view : ChainView) : Prop :=
  view.canonical.getNextCursor current = .ok .atHead

/-- Not enough finalized blocks for the segment that starts at `first`. -/
def TooFewFinalized (first : Cursor) (segmentSize : Nat) (view : ChainView) : Prop :=
  min view.finalized view.canonical.getHead.number < first.number + segmentSize

/-- Not enough segmented blocks for the group that starts at `first`. -/
def TooFewSegmented (first : Cursor) (blocksInGroup : Nat) (view : ChainView) : Prop :=
  ∀ segmented, view.segmented = some segmented → segmented < first.number + blocksInGroup

theorem atHead_watched (current : Option Cursor) :
    Watched ChainView.set Setter.channel [.head] (AtHead current) := by
  intro view setter silent holds
  cases setter with
  | recent => exact absurd List.mem_cons_self (silent .head rfl)
  | finalizedBlock | pendingGeneration | segmentedBlock | groupedBlock => exact holds

theorem tooFewSegmented_watched (first : Cursor) (blocksInGroup : Nat) :
    Watched ChainView.set Setter.channel [.segmented] (TooFewSegmented first blocksInGroup) := by
  intro view setter silent holds
  cases setter with
  | segmentedBlock => exact absurd List.mem_cons_self (silent .segmented rfl)
  | recent | finalizedBlock | pendingGeneration | groupedBlock => exact holds

theorem finalized_watched (bound : Nat) :
    Watched ChainView.set Setter.channel [.finalized] (fun view : ChainView => view.finalized < bound) := by
  intro view setter silent holds
  cases setter with
  | finalizedBlock => exact absurd List.mem_cons_self (silent .finalized rfl)
  | recent | pendingGeneration | segmentedBlock | groupedBlock => exact holds

theorem head_watched (bound : Nat) :
    Watched ChainView.set Setter.channel [.head] (fun view : ChainView => view.canonical.getHead.number < bound) := by
  intro view setter silent holds
  cases setter with
  | recent => exact absurd List.mem_cons_self (silent .head rfl)
  | finalizedBlock | pendingGeneration | segmentedBlock | groupedBlock => exact holds

namespace Loop

def Reason (view : ChainView) : Loop → Prop
  | .stream loop =>
    match loop.phase with
    | .atHead _ => AtHead loop.current view
    | _ => True
  | .segment segmentSize (.waiting first _) => TooFewFinalized first segmentSize view
  | .group blocksInGroup (.waiting first _) => TooFewSegmented first blocksInGroup view
  | _ => True

/-- The values that the task read to decide, and for whose changes it has no
    future yet. -/
def exposed : Loop → List Channel
  | .stream loop =>
    match loop.phase with
    | .readGeneration | .sendPending _ | .refreshAtHead => [.head]
    | .atHead wait => [.head].filter (· ∉ wait.created)
    | _ => []
  | .segment _ (.gotHead _ _) => [.head]
  | .segment _ (.waiting _ wait) => wait.channels.filter (· ∉ wait.created)
  | .group _ (.waiting _ wait) => wait.channels.filter (· ∉ wait.created)
  | _ => []

end Loop

namespace Watching

/-- Whenever the task is parked, its reason to wait still holds. -/
def WaitsRightly (watching : Watching) : Prop :=
  ∀ wait, watching.loop.wait = some wait → wait.Parked → watching.loop.Reason watching.view

/-- No value is set between the read that a decision rests on and the future for
    its changes, and a stream that was notified of a new head handles it. -/
def Timely (watching : Watching) : WatchingInput → Prop
  | .set setter => ∀ channel, setter.channel = some channel → channel ∉ watching.loop.exposed
  | .move (.wake channel) => ∀ loop wait, watching.loop = .stream loop → loop.phase = .atHead wait →
      .head ∈ wait.notified → channel = .head
  | _ => True

end Watching

/-! ## The reasons are kept -/

/-- A wait for one of the values that a segment needs. -/
inductive SegmentWait (first : Cursor) (segmentSize : Nat) (view : ChainView) (wait : Wait Channel) : Prop
  | finalized (waits : .finalized ∈ wait.channels)
      (keeps : Notify.Keeps [.finalized] (fun view : ChainView => view.finalized < first.number + segmentSize) wait view)
  | head (waits : .head ∈ wait.channels)
      (keeps : Notify.Keeps [.head] (fun view : ChainView => view.canonical.getHead.number < first.number + segmentSize)
        wait view)

def StreamLoop.Sound (view : ChainView) (loop : StreamLoop) : Prop :=
  match loop.phase with
  | .readGeneration | .sendPending _ | .refreshAtHead => AtHead loop.current view
  | .atHead wait => Notify.Keeps [.head] (AtHead loop.current) wait view
  | _ => True

def SegmentPhase.Sound (view : ChainView) (segmentSize : Nat) : SegmentPhase → Prop
  | .gotHead _ head => head = view.canonical.getHead
  | .waiting first wait => SegmentWait first segmentSize view wait
  | _ => True

def GroupPhase.Sound (view : ChainView) (blocksInGroup : Nat) : GroupPhase → Prop
  | .waiting first wait => .segmented ∈ wait.channels ∧
      Notify.Keeps [.segmented] (TooFewSegmented first blocksInGroup) wait view
  | _ => True

def Loop.Sound (view : ChainView) : Loop → Prop
  | .stream loop => loop.Sound view
  | .segment segmentSize phase => phase.Sound view segmentSize
  | .group blocksInGroup phase => phase.Sound view blocksInGroup

theorem SegmentPhase.Sound.proceed {segmentSize} {phase after : SegmentPhase} (sound : phase.Sound view segmentSize)
    (proceeded : phase.proceed view segmentSize = some after) : after.Sound view segmentSize := by
  cases phase with
  | start =>
    simp only [SegmentPhase.proceed] at proceeded
    split at proceeded <;> (obtain rfl := Option.some.inj proceeded; trivial)
  | noSegment =>
    cases proceeded
    cases view.getStartingCursor.toOption <;> trivial
  | segmented cursor =>
    cases proceeded
    cases followingCursor view cursor <;> trivial
  | next =>
    cases proceeded
    rfl
  | gotHead first head =>
    obtain rfl : head = view.canonical.getHead := sound
    simp only [SegmentPhase.proceed] at proceeded
    split at proceeded
    · cases proceeded
      trivial
    case _ finalized answered =>
      have number := ChainView.cursorAt_number answered
      split_ifs at proceeded with enough behind
      · cases proceeded
        trivial
      · cases proceeded
        exact .finalized List.mem_cons_self (.decided (by omega))
      · cases proceeded
        exact .head List.mem_cons_self (.decided (by omega))
  | compacting | waiting | ended => cases proceeded

theorem GroupPhase.Sound.proceed {blocksInGroup} {phase after : GroupPhase}
    (proceeded : phase.proceed view blocksInGroup = some after) : after.Sound view blocksInGroup := by
  cases phase with
  | start =>
    simp only [GroupPhase.proceed] at proceeded
    split at proceeded <;> (obtain rfl := Option.some.inj proceeded; trivial)
  | noGroup =>
    cases proceeded
    cases view.getStartingCursor.toOption <;> trivial
  | grouped cursor =>
    cases proceeded
    cases followingCursor view cursor <;> trivial
  | next =>
    simp only [GroupPhase.proceed] at proceeded
    split at proceeded
    · cases proceeded
      trivial
    case _ none =>
      cases proceeded
      refine ⟨List.mem_cons_self, .decided fun segmented known => ?_⟩
      rw [ChainView.optionalCursor_none none] at known
      cases known
    case _ cursor answered =>
      split_ifs at proceeded with enough
      · cases proceeded
        trivial
      · cases proceeded
        refine ⟨List.mem_cons_self, .decided fun segmented known => ?_⟩
        cases (ChainView.optionalCursor_some answered).symm.trans known
        omega
  | compacting | waiting | ended => cases proceeded

namespace StreamLoop.Sound

variable {loop after : StreamLoop}

theorem tick (idle : loop.phase = .idle) : (loop.tick view).Sound view := by
  unfold StreamLoop.tick
  split
  · trivial
  · split_ifs <;> trivial
  · simp only [StreamLoop.Sound, idle]
  case _ atHead =>
    split_ifs
    · exact atHead
    · exact .decided atHead

theorem proceed (sound : loop.Sound view) (proceeded : loop.proceed view = some after) : after.Sound view := by
  unfold StreamLoop.proceed at proceeded
  unfold StreamLoop.Sound at sound
  split at proceeded
  case _ idle =>
    cases proceeded
    exact tick idle
  case _ phase =>
    cases proceeded
    rw [phase] at sound
    exact sound
  case _ generation phase =>
    cases proceeded
    rw [phase] at sound
    exact .decided sound
  case _ phase =>
    cases proceeded
    rw [phase] at sound
    unfold refresh
    split
    · trivial
    · exact .decided sound
  case _ phase =>
    cases proceeded
    unfold refresh
    split <;> trivial
  · cases proceeded

/-- The head is not new when another branch is taken. -/
theorem wake (sound : loop.Sound view) {channel} (woken : loop.wake channel = some after)
    (first : ∀ wait, loop.phase = .atHead wait → .head ∈ wait.notified → channel = .head) : after.Sound view := by
  unfold StreamLoop.wake at woken
  unfold StreamLoop.Sound at sound
  have stays : ∀ wait, loop.phase = .atHead wait → channel ≠ .head → AtHead loop.current view := by
    intro wait phase other
    rw [phase] at sound
    refine sound fun watched member notified => ?_
    obtain rfl := List.mem_singleton.mp member
    exact other (first wait phase notified)
  split at woken
  · split_ifs at woken
    cases woken
    trivial
  case _ wait phase =>
    split_ifs at woken
    cases woken
    exact stays wait phase (by simp)
  case _ wait phase =>
    split_ifs at woken
    cases woken
    exact stays wait phase (by simp)
  · split_ifs at woken
    cases woken
    trivial
  · cases woken

end StreamLoop.Sound

namespace Loop.Sound

variable {loop after : Loop}

theorem create (sound : loop.Sound view) {channel} (created : loop.step view (.create channel) = some after) :
    after.Sound view := by
  obtain ⟨wait, isWait, made⟩ := Option.bind_eq_some_iff.mp created
  obtain ⟨next, isNext, rfl⟩ := Option.map_eq_some_iff.mp made
  have channels := Wait.channels_create isNext
  cases loop with
  | stream loop =>
    obtain ⟨_, _, _, phase, _⟩ := loop
    cases phase with
    | atHead =>
      cases isWait
      exact Notify.Keeps.create sound isNext
    | awaitFinalized => trivial
    | idle | delivering | readGeneration | sendPending | refreshAtHead | refreshFinalized | ended => cases isWait
  | segment size phase =>
    cases phase with
    | waiting =>
      cases isWait
      rcases sound with ⟨waits, keeps⟩ | ⟨waits, keeps⟩
      · exact .finalized (channels ▸ waits) (keeps.create isNext)
      · exact .head (channels ▸ waits) (keeps.create isNext)
    | start | noSegment | segmented | next | gotHead | compacting | ended => cases isWait
  | group size phase =>
    cases phase with
    | waiting =>
      cases isWait
      exact ⟨channels ▸ sound.1, sound.2.create isNext⟩
    | start | noGroup | grouped | next | compacting | ended => cases isWait

/-- A value that the loop relies on is only set once there is a future for it. -/
theorem created_of_timely {wait : Wait Channel} {setter : Setter} {relies : List Channel} {watched}
    (timely : ∀ channel, setter.channel = some channel → channel ∉ relies.filter (· ∉ wait.created))
    (member : watched ∈ relies) :
    ∀ channel, setter.channel = some channel → channel ∈ [watched] → channel ∈ wait.created := by
  intro channel announced isWatched
  obtain rfl := List.mem_singleton.mp isWatched
  by_contra missing
  exact timely channel announced (List.mem_filter.mpr ⟨member, by simpa using missing⟩)

variable (sound : loop.Sound view)
include sound

theorem set (setter : Setter) (timely : ∀ channel, setter.channel = some channel → channel ∉ loop.exposed) :
    (loop.notify setter.channel).Sound (view.set setter) := by
  cases loop with
  | stream loop =>
    obtain ⟨_, current, _, phase, _⟩ := loop
    cases phase with
    | readGeneration | sendPending | refreshAtHead => exact atHead_watched current view setter timely sound
    | atHead =>
      exact Notify.Keeps.update (atHead_watched current) sound (created_of_timely timely List.mem_cons_self)
    | idle | delivering | awaitFinalized | refreshFinalized | ended => trivial
  | segment size phase =>
    cases phase with
    | gotHead first head =>
      obtain rfl : head = view.canonical.getHead := sound
      cases setter with
      | recent => exact absurd List.mem_cons_self (timely .head rfl)
      | finalizedBlock | pendingGeneration | segmentedBlock | groupedBlock => rfl
    | waiting first wait =>
      have channels := wait.channels_notify setter.channel
      rcases sound with ⟨waits, keeps⟩ | ⟨waits, keeps⟩
      · refine .finalized (channels ▸ waits) (keeps.update (finalized_watched _) ?_)
        exact created_of_timely timely waits
      · refine .head (channels ▸ waits) (keeps.update (head_watched _) ?_)
        exact created_of_timely timely waits
    | start | noSegment | segmented | next | compacting | ended => trivial
  | group size phase =>
    cases phase with
    | waiting first wait =>
      have channels := wait.channels_notify setter.channel
      refine ⟨channels ▸ sound.1, sound.2.update (tooFewSegmented_watched first size) ?_⟩
      exact created_of_timely timely sound.1
    | start | noGroup | grouped | next | compacting | ended => trivial

theorem move {move} (moved : loop.step view move = some after) (timely : Watching.Timely ⟨view, loop⟩ (.move move)) :
    after.Sound view := by
  cases move with
  | proceed =>
    cases loop with
    | stream =>
      obtain ⟨_, proceeded, rfl⟩ := Option.map_eq_some_iff.mp moved
      exact StreamLoop.Sound.proceed sound proceeded
    | segment =>
      obtain ⟨_, proceeded, rfl⟩ := Option.map_eq_some_iff.mp moved
      exact SegmentPhase.Sound.proceed sound proceeded
    | group =>
      obtain ⟨_, proceeded, rfl⟩ := Option.map_eq_some_iff.mp moved
      exact GroupPhase.Sound.proceed proceeded
  | deliver cursor last =>
    simp only [step] at moved
    split at moved
    · split at moved
      · cases moved
        cases last <;> trivial
      · cases moved
    · cases moved
  | compacted =>
    simp only [step] at moved
    split at moved <;> cases moved <;> trivial
  | create => exact sound.create moved
  | wake =>
    simp only [step] at moved
    split at moved
    · obtain ⟨_, woken, rfl⟩ := Option.map_eq_some_iff.mp moved
      exact StreamLoop.Sound.wake sound woken fun wait phase => timely _ wait rfl phase
    · split_ifs at moved
      cases moved
      trivial
    · split_ifs at moved
      cases moved
      trivial
    · cases moved

theorem reason {wait} (isWait : loop.wait = some wait) (parked : wait.Parked) : loop.Reason view := by
  cases loop with
  | stream loop =>
    obtain ⟨_, _, _, phase, _⟩ := loop
    cases phase with
    | atHead =>
      cases isWait
      exact Notify.Keeps.parked sound parked
    | idle | delivering | readGeneration | sendPending | refreshAtHead | awaitFinalized | refreshFinalized | ended =>
      trivial
  | segment size phase =>
    cases phase with
    | waiting =>
      cases isWait
      rcases sound with ⟨-, keeps⟩ | ⟨-, keeps⟩
      · exact (Nat.min_le_left _ _).trans_lt (keeps.parked parked)
      · exact (Nat.min_le_right _ _).trans_lt (keeps.parked parked)
    | start | noSegment | segmented | next | gotHead | compacting | ended => trivial
  | group size phase =>
    cases phase with
    | waiting =>
      cases isWait
      exact sound.2.parked parked
    | start | noGroup | grouped | next | compacting | ended => trivial

end Loop.Sound

def Loop.Begins : Loop → Prop
  | .stream loop => loop.phase = .idle
  | .segment _ phase => phase = .start
  | .group _ phase => phase = .start

namespace Watching

def Sound (watching : Watching) : Prop := watching.loop.Sound watching.view

theorem Sound.step {watching after : Watching} (sound : watching.Sound) {input} (timely : watching.Timely input)
    (stepped : watching.step input = some after) : after.Sound := by
  cases input with
  | set setter =>
    cases stepped
    exact Loop.Sound.set sound setter timely
  | move move =>
    obtain ⟨_, moved, rfl⟩ := Option.map_eq_some_iff.mp stepped
    exact Loop.Sound.move sound moved timely

theorem Sound.of_begins {watching : Watching} (begins : watching.loop.Begins) : watching.Sound := by
  unfold Sound
  cases running : watching.loop with
  | stream loop =>
    rw [running] at begins
    simp only [Loop.Sound, StreamLoop.Sound, show loop.phase = .idle from begins]
  | segment size phase | group size phase =>
    rw [running] at begins
    obtain rfl : phase = .start := begins
    trivial

theorem waitsRightly_of_timely {watching last : Watching} {inputs : List WatchingInput}
    (begins : watching.loop.Begins) (timely : Runs.Meets step Timely watching inputs)
    (reached : Runs.run step watching inputs = some last) : last.WaitsRightly := by
  have sound : last.Sound :=
    Runs.run_guarded (fun _ _ _ sound guard stepped => sound.step guard stepped) (.of_begins begins) timely reached
  exact fun wait isWait parked => Loop.Sound.reason sound isWait parked

end Watching

end

namespace MissedHead

def genesis : BlockInfo := ⟨0, ⟨[1]⟩, ⟨[]⟩⟩

def second : BlockInfo := ⟨1, ⟨[2]⟩, ⟨[1]⟩⟩

def view : ChainView :=
  .new 0 none none 10 10 ⟨fun _ => .ok none, 0, 100, (Building.single genesis).snapshot⟩

def extended : CanonicalChainSegment := ((Building.single genesis).grown second).snapshot

def stream : StreamLoop :=
  { finality := .accepted, current := some genesis.cursor, finalized := genesis.cursor, phase := .idle, used := [] }

/-- The second block is published after the stream asked for the next cursor, and
    before it waits. -/
def inputs : List WatchingInput :=
  [.move .proceed, .set (.recent extended), .move (.create .head), .move (.create .finalized)]

/-- The stream waits before the second block is published. -/
def inTime : List WatchingInput := [.move .proceed, .move (.create .head), .move (.create .finalized)]

def bothCreated : Wait Channel := ⟨[.head, .finalized], [.finalized, .head], []⟩

end MissedHead

open MissedHead

/-- The stream is parked behind the head of the view. -/
theorem Watching.waitsRightly_fails_missedHead : ∃ last : Watching,
    Runs.run Watching.step ⟨MissedHead.view, .stream MissedHead.stream⟩ MissedHead.inputs = some last ∧
      ¬ last.WaitsRightly := by
  obtain ⟨last, loop, wait, reached, isLoop, current, phase, parked, next⟩ : ∃ (last : Watching) (loop : StreamLoop)
      (wait : Wait Channel),
      Runs.run Watching.step ⟨MissedHead.view, .stream MissedHead.stream⟩ MissedHead.inputs = some last ∧
        last.loop = .stream loop ∧ loop.current = some genesis.cursor ∧ loop.phase = .atHead wait ∧
        wait.Parked ∧ last.view.canonical.getNextCursor (some genesis.cursor) = .ok (.continue second.cursor true) :=
    ⟨_, _, bothCreated, rfl, rfl, rfl, rfl, ⟨by decide, rfl⟩, rfl⟩
  refine ⟨last, reached, fun rightly => ?_⟩
  have isWait : last.loop.wait = some wait := by simp only [isLoop, Loop.wait, phase]
  have reason := rightly wait isWait parked
  simp only [isLoop, Loop.Reason, phase, AtHead, current, next] at reason
  cases reason

theorem Watching.waitsRightly_inTime : ∃ last wait,
    Runs.run Watching.step ⟨MissedHead.view, .stream MissedHead.stream⟩ inTime = some last ∧
      last.loop.wait = some wait ∧ wait.Parked ∧ last.WaitsRightly := by
  obtain ⟨last, wait, reached, isWait, parked⟩ : ∃ last wait,
      Runs.run Watching.step ⟨MissedHead.view, .stream MissedHead.stream⟩ inTime = some last ∧
        last.loop.wait = some wait ∧ wait.Parked := ⟨_, bothCreated, rfl, rfl, ⟨by decide, rfl⟩⟩
  refine ⟨last, wait, reached, isWait, parked, waitsRightly_of_timely ?_ ?_ reached⟩
  · exact rfl
  · exact .cons trivial rfl (.cons trivial rfl (.cons trivial rfl trivial))

/-! ## Waiting for the finalized block -/

section
variable {view : ChainView} {after : StreamLoop}

theorem StreamLoop.proceed_awaits {loop : StreamLoop} (proceeded : loop.proceed view = some after) {next wait}
    (awaits : after.phase = .awaitFinalized next wait) :
    loop.phase = .idle ∧ wait = .on [.finalized] ∧ loop.finalized.number < next.number := by
  unfold StreamLoop.proceed at proceeded
  split at proceeded
  case _ idle =>
    cases proceeded
    refine ⟨idle, ?_⟩
    unfold tick at awaits
    split at awaits
    · cases awaits
    · split_ifs at awaits with behind
      · obtain ⟨rfl, rfl⟩ := StreamPhase.awaitFinalized.inj awaits
        exact ⟨rfl, of_decide_eq_true behind.2⟩
      · cases awaits
    · simp only [idle, reduceCtorEq] at awaits
    · split_ifs at awaits <;> cases awaits
  · cases proceeded
    cases awaits
  · cases proceeded
    cases awaits
  · cases proceeded
    unfold refresh at awaits
    split at awaits <;> cases awaits
  · cases proceeded
    unfold refresh at awaits
    split at awaits <;> cases awaits
  · cases proceeded

theorem StreamLoop.wake_awaits {loop : StreamLoop} {channel} (woken : loop.wake channel = some after) (next : Cursor)
    (wait : Wait Channel) : after.phase ≠ .awaitFinalized next wait := by
  unfold StreamLoop.wake at woken
  split at woken
  · split_ifs at woken
    cases woken
    exact nofun
  · split_ifs at woken
    cases woken
    exact nofun
  · split_ifs at woken
    cases woken
    exact nofun
  · split_ifs at woken
    cases woken
    exact nofun
  · cases woken

theorem Loop.withWait_awaits {loop : Loop} {earlier wait later next} (isWait : loop.wait = some earlier)
    (isAfter : loop.withWait later = .stream after) (awaits : after.phase = .awaitFinalized next wait) :
    wait = later ∧ ∃ before, loop = .stream before ∧ before.phase = .awaitFinalized next earlier := by
  cases loop with
  | stream loop =>
    obtain ⟨_, _, _, phase, _⟩ := loop
    cases phase with
    | atHead => cases isAfter; cases awaits
    | awaitFinalized =>
      cases isWait
      cases isAfter
      cases awaits
      exact ⟨rfl, _, rfl, rfl⟩
    | idle | delivering | readGeneration | sendPending | refreshAtHead | refreshFinalized | ended => cases isWait
  | segment size phase | group size phase => cases phase <;> cases isAfter

namespace Watching

/-- Whenever a stream is parked ahead of the finalized block, so is its next
    block in the view. -/
def AwaitsRightly (watching : Watching) : Prop :=
  ∀ loop next wait, watching.loop = .stream loop → loop.phase = .awaitFinalized next wait → wait.Parked →
    watching.view.finalized < next.number

/-- A tick begins with the finalized block of the view, which is not set before
    the stream has its future. -/
def KnowsFinalized (watching : Watching) : WatchingInput → Prop
  | .move .proceed => ∀ loop, watching.loop = .stream loop → loop.phase = .idle →
      loop.finalized.number = watching.view.finalized
  | .set (.finalizedBlock _) => ∀ loop next wait, watching.loop = .stream loop →
      loop.phase = .awaitFinalized next wait → .finalized ∈ wait.created
  | _ => True

/-- The next block is after the finalized one, or the stream is notified. -/
def Awaiting (watching : Watching) : Prop :=
  ∀ loop next wait, watching.loop = .stream loop → loop.phase = .awaitFinalized next wait →
    Notify.Keeps [.finalized] (fun view : ChainView => view.finalized < next.number) wait watching.view

variable {watching : Watching}

/-- A stream waits for the finalized block only after a tick that decided so. -/
theorem Awaiting.move {after} (awaiting : watching.Awaiting) {move} (knows : watching.KnowsFinalized (.move move))
    (stepped : watching.step (.move move) = some after) : after.Awaiting := by
  obtain ⟨_, step, rfl⟩ := Option.map_eq_some_iff.mp stepped
  rintro loop next wait rfl awaits
  cases move with
  | proceed =>
    simp only [Loop.step] at step
    split at step
    case _ before isBefore =>
      obtain ⟨_, proceeded, ⟨⟩⟩ := Option.map_eq_some_iff.mp step
      obtain ⟨idle, rfl, behind⟩ := StreamLoop.proceed_awaits proceeded awaits
      exact .decided (knows before isBefore idle ▸ behind)
    · obtain ⟨_, -, ⟨⟩⟩ := Option.map_eq_some_iff.mp step
    · obtain ⟨_, -, ⟨⟩⟩ := Option.map_eq_some_iff.mp step
  | deliver cursor last =>
    simp only [Loop.step] at step
    split at step
    · split at step
      · cases step
        cases last <;> cases awaits
      · cases step
    · cases step
  | compacted =>
    simp only [Loop.step] at step
    split at step <;> cases step
  | create =>
    obtain ⟨earlier, isWait, made⟩ := Option.bind_eq_some_iff.mp step
    obtain ⟨_, created, isLoop⟩ := Option.map_eq_some_iff.mp made
    obtain ⟨rfl, before, isBefore, phase⟩ := Loop.withWait_awaits isWait isLoop awaits
    exact (awaiting before next earlier isBefore phase).create created
  | wake =>
    simp only [Loop.step] at step
    split at step
    · obtain ⟨_, woken, ⟨⟩⟩ := Option.map_eq_some_iff.mp step
      exact absurd awaits (StreamLoop.wake_awaits woken next wait)
    · split_ifs at step
      cases step
    · split_ifs at step
      cases step
    · cases step

theorem Awaiting.set (awaiting : watching.Awaiting) {setter} (knows : watching.KnowsFinalized (.set setter)) :
    Awaiting ⟨watching.view.set setter, watching.loop.notify setter.channel⟩ := by
  intro loop next wait isLoop awaits
  cases isWait : watching.loop.wait with
  | none =>
    simp only [Loop.notify, isWait, Option.elim_none] at isLoop
    simp only [isLoop, Loop.wait, awaits, reduceCtorEq] at isWait
  | some earlier =>
    simp only [Loop.notify, isWait, Option.elim_some] at isLoop
    obtain ⟨rfl, before, isBefore, phase⟩ := Loop.withWait_awaits isWait isLoop awaits
    refine (awaiting before next earlier isBefore phase).update (finalized_watched next.number) ?_
    rintro channel announced watched
    obtain rfl := List.mem_singleton.mp watched
    cases setter with
    | finalizedBlock => exact knows before next earlier isBefore phase
    | recent | pendingGeneration | segmentedBlock | groupedBlock => cases announced

theorem Awaiting.step {after} (awaiting : watching.Awaiting) {input} (knows : watching.KnowsFinalized input)
    (stepped : watching.step input = some after) : after.Awaiting := by
  cases input with
  | set =>
    cases stepped
    exact awaiting.set knows
  | move move => exact awaiting.move knows stepped

theorem Awaiting.of_begins (begins : watching.loop.Begins) : watching.Awaiting := by
  rintro loop next wait isLoop awaits
  rw [isLoop] at begins
  cases awaits.symm.trans (show loop.phase = .idle from begins)

theorem awaitsRightly_of_knowsFinalized {watching last : Watching} {inputs : List WatchingInput}
    (begins : watching.loop.Begins) (knows : Runs.Meets step KnowsFinalized watching inputs)
    (reached : Runs.run step watching inputs = some last) : last.AwaitsRightly := by
  have awaiting : last.Awaiting :=
    Runs.run_guarded (fun _ _ _ awaiting guard stepped => awaiting.step guard stepped) (.of_begins begins) knows reached
  exact fun loop next wait isLoop awaits parked => (awaiting loop next wait isLoop awaits).parked parked

end Watching

end

namespace MissedHead

/-- A stream of finalized blocks that was created when the first one was. -/
def finalizedStream : StreamLoop :=
  { finality := .finalized, current := some genesis.cursor, finalized := genesis.cursor, phase := .idle, used := [] }

/-- The second block is finalized before the stream asks for the next cursor. -/
def alreadyFinalized : List WatchingInput :=
  [.set (.recent extended), .set (.finalizedBlock 1), .move .proceed, .move (.create .finalized)]

def notFinalized : List WatchingInput := [.set (.recent extended), .move .proceed, .move (.create .finalized)]

def finalizedCreated : Wait Channel := ⟨[.finalized], [.finalized], []⟩

end MissedHead

/-- The stream waits for a block that is finalized. -/
theorem Watching.awaitsRightly_fails_stale : ∃ last : Watching,
    Runs.run Watching.step ⟨MissedHead.view, .stream finalizedStream⟩ alreadyFinalized = some last ∧
      ¬ last.AwaitsRightly := by
  obtain ⟨last, loop, reached, isLoop, phase, finalized⟩ : ∃ (last : Watching) (loop : StreamLoop),
      Runs.run Watching.step ⟨MissedHead.view, .stream finalizedStream⟩ alreadyFinalized = some last ∧
        last.loop = .stream loop ∧ loop.phase = .awaitFinalized second.cursor finalizedCreated ∧
        last.view.finalized = 1 := ⟨_, _, rfl, rfl, rfl, rfl⟩
  refine ⟨last, reached, fun rightly => ?_⟩
  have ahead := rightly loop second.cursor finalizedCreated isLoop phase ⟨by decide, rfl⟩
  rw [finalized] at ahead
  exact absurd ahead (by decide)

theorem Watching.awaitsRightly_notFinalized : ∃ last loop,
    Runs.run Watching.step ⟨MissedHead.view, .stream finalizedStream⟩ notFinalized = some last ∧
      last.loop = .stream loop ∧ loop.phase = .awaitFinalized second.cursor finalizedCreated ∧
      finalizedCreated.Parked ∧ last.AwaitsRightly := by
  obtain ⟨last, loop, reached, isLoop, phase⟩ : ∃ last loop,
      Runs.run Watching.step ⟨MissedHead.view, .stream finalizedStream⟩ notFinalized = some last ∧
        last.loop = .stream loop ∧ loop.phase = .awaitFinalized second.cursor finalizedCreated :=
    ⟨_, _, rfl, rfl, rfl⟩
  refine ⟨last, loop, reached, isLoop, phase, ⟨by decide, rfl⟩, awaitsRightly_of_knowsFinalized ?_ ?_ reached⟩
  · exact rfl
  · refine .cons trivial rfl (.cons ?_ rfl (.cons trivial rfl trivial))
    rintro loop ⟨⟩ -
    rfl

end Starkstream
