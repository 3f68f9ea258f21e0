import Starkstream.DataStream.SegmentStream

/-! # The data stream of one client

`DataStream::start` calls `tick` in a loop.  A tick reads the chain view several
times, and the view can change between any two reads, so a step here is the part
of a tick from one read, wait or send to the next; `Task` says where in the tick
the stream stands.  A stream whose tick returned an error or panicked is `ended`.
The loop that serves pending blocks at the head is not part of this model.
-/

namespace Starkstream

inductive DataFinality where
  | pending
  | accepted
  | finalized
  deriving DecidableEq

inductive DataProduction where
  | backfill
  | live
  deriving DecidableEq

inductive Message where
  /-- The data of one block.  `block` is the header that was read from the block
      or from the segment. -/
  | data (cursor : Option Cursor) (endCursor block : Cursor) (finality : DataFinality)
      (production : DataProduction)
  | invalidate (cursor : Cursor)
  | finalize (cursor : Cursor)
  deriving DecidableEq

structure DataStream where
  blockFilter : List BlockFilter
  current : Option Cursor
  finalized : Cursor
  finality : DataFinality
  prefetchSegmentCount : Nat

/-- A segment that was fetched, and the blocks of it that are still to be sent.
    `headers` is what the segment holds, one entry per block. -/
structure SegmentAccess where
  firstBlock : Nat
  blocks : List Nat
  headers : List Cursor
  deriving DecidableEq

inductive Task where
  | idle
  | continuing (cursor : Cursor) (isHead : Bool)
  /-- Waiting for a change of the finalized block. -/
  | awaitFinalized (changed : Bool)
  /-- In `tick_single`. -/
  | single (cursor : Cursor) (isHead : Bool)
  /-- In `tick_segment_stream`, with the task that fetches the segments. -/
  | segments (cursor : Cursor) (producer : SegmentTask) (channel : List SegmentAccessFetch)
      (access : Option SegmentAccess)
  /-- In `tick_at_head`, waiting for a change of the head or of the finalized
      block. -/
  | atHead (headChanged finalizedChanged : Bool)
  | ended
  deriving DecidableEq

/-- Whether there is data for a block after one more filter. -/
def addData (isLive : Bool) (block : Cursor) (hasData : Bool) (filter : BlockFilter) :
    Outcome DataStreamError Bool := do
  let matched ← filter.blockMatches block
  let shouldSendHeader :=
    match filter.headerFilter with
    | .always => true
    | .onData => matched
    | .onDataOrOnNewBlock => matched || isLive
  return hasData || shouldSendHeader

/-- `filter_fragment`: whether the filters produce data for a block. -/
def filterFragment (filters : List BlockFilter) (isLive : Bool) (block : Cursor) :
    Outcome DataStreamError Bool :=
  filters.foldlM (addData isLive block) false

structure Streaming where
  stream : DataStream
  task : Task
  sent : List Message

/-- The parts of a tick. -/
inductive Move where
  | nextCursor
  | chooseSource
  | headChanged
  | finalizedChanged
  | sendSingle (found : Bool)
  /-- A step of the task that fetches the segments. -/
  | produce (found : Bool)
  /-- The end of that task is noticed. -/
  | joined
  | receive (found : Bool)
  | deliver
  deriving DecidableEq

namespace Streaming

variable (view : ChainView) (segments : Nat → Option (List Cursor))

def ended (streaming : Streaming) : Streaming := { streaming with task := .ended }

/-- The stream moves to `cursor` after it sent `messages`. -/
def advance (streaming : Streaming) (cursor : Cursor) (messages : List Message) (task : Task) : Streaming :=
  { stream := { streaming.stream with current := some cursor }
    task
    sent := streaming.sent ++ messages }

def nextCursor (streaming : Streaming) : Option Streaming :=
  match view.canonical.getNextCursor streaming.stream.current with
  | .error _ => some streaming.ended
  | .ok (.continue cursor isHead) =>
    if streaming.stream.finality = .finalized ∧ cursor.strictAfter streaming.stream.finalized then
      -- Wait for the finalized cursor to catch up and then try again.
      some { streaming with task := .awaitFinalized false }
    else some { streaming with task := .continuing cursor isHead }
  | .ok (.invalidate cursor) => some (streaming.advance cursor [.invalidate cursor] .idle)
  | .ok .atHead =>
    if streaming.stream.finality = .pending then none
    else some { streaming with task := .atHead false false }

def chooseSource (streaming : Streaming) (cursor : Cursor) (isHead : Bool) : Streaming :=
  match view.hasSegmentForBlock cursor.number with
  | .error _ => streaming.ended
  | .ok true => { streaming with task := .segments cursor (.starting cursor) [] none }
  | .ok false => { streaming with task := .single cursor isHead }

/-- The finalized block changed; `messages` are sent about it. -/
def updateFinalized (streaming : Streaming) (messages : Cursor → List Message) (task : Task) : Streaming :=
  match view.getFinalizedCursor with
  | .error _ => streaming.ended
  | .ok finalized =>
    { stream := { streaming.stream with finalized }
      task
      sent := streaming.sent ++ messages finalized }

def sendSingle (streaming : Streaming) (cursor : Cursor) (isHead found : Bool) : Streaming :=
  match view.getFinalizedCursor with
  | .error _ => streaming.ended
  | .ok finalized =>
    if found = false then streaming.ended
    else
      match filterFragment streaming.stream.blockFilter isHead cursor with
      | .error _ => streaming.ended
      | .ok hasData =>
        let finality := if cursor.strictAfter finalized then .accepted else .finalized
        let production := if isHead then .live else .backfill
        let data := .data streaming.stream.current cursor cursor finality production
        streaming.advance cursor (if hasData then [data] else []) .idle

/-- Wait for a fetched segment.  The channel is closed once it is empty and the
    task that fills it has returned. -/
def receive (streaming : Streaming) (cursor : Cursor) (producer : SegmentTask) (found : Bool) :
    List SegmentAccessFetch → Option Streaming
  | [] =>
    match producer with
    | .finished _ => some { streaming with task := .idle }
    | _ => none
  | fetch :: rest =>
    match found, segments fetch.firstBlock with
    | true, some headers =>
      some { streaming with
        task := .segments cursor producer rest (some ⟨fetch.firstBlock, fetch.blocks, headers⟩) }
    | _, _ => some streaming.ended

def cursorBefore (number : Nat) : Option Cursor :=
  if number = 0 then none else some (.newFinalized (number - 1))

def deliver (streaming : Streaming) (cursor : Cursor) (producer : SegmentTask)
    (channel : List SegmentAccessFetch) (access : SegmentAccess) : Streaming :=
  match access.blocks with
  | [] => { streaming with task := .segments cursor producer channel none }
  | number :: rest =>
    let next := Task.segments cursor producer channel (some { access with blocks := rest })
    if number < access.firstBlock then streaming.ended
    else
      let offset := number - access.firstBlock
      let endCursor := Cursor.newFinalized (access.firstBlock + offset)
      if endCursor.number < cursor.number then { streaming with task := next }
      else
        match access.headers[offset]? with
        | none => streaming.ended
        | some block =>
          match filterFragment streaming.stream.blockFilter false block with
          | .error _ => streaming.ended
          | .ok hasData =>
            let data := .data (cursorBefore endCursor.number) endCursor block .finalized .backfill
            streaming.advance endCursor (if hasData then [data] else []) next

/-- One part of a tick; `none` if the stream does not stand there. -/
def step (streaming : Streaming) : Move → Option Streaming
  | .nextCursor =>
    match streaming.task with
    | .idle => streaming.nextCursor view
    | _ => none
  | .chooseSource =>
    match streaming.task with
    | .continuing cursor isHead => some (streaming.chooseSource view cursor isHead)
    | _ => none
  | .headChanged =>
    match streaming.task with
    | .atHead true _ => some { streaming with task := .idle }
    | _ => none
  | .finalizedChanged =>
    match streaming.task with
    | .awaitFinalized true => some (streaming.updateFinalized view (fun _ => []) .idle)
    | .atHead _ true =>
      some (streaming.updateFinalized view (fun finalized => [.finalize finalized]) (.atHead false false))
    | _ => none
  | .sendSingle found =>
    match streaming.task with
    | .single cursor isHead => some (streaming.sendSingle view cursor isHead found)
    | _ => none
  | .produce found =>
    match streaming.task with
    | .segments cursor producer channel access =>
      (producer.step view streaming.stream.blockFilter streaming.stream.prefetchSegmentCount found
        channel).map fun (producer, channel) =>
          { streaming with task := .segments cursor producer channel access }
    | _ => none
  | .joined =>
    match streaming.task with
    | .segments _ (.finished true) _ none => some streaming
    | .segments _ (.finished false) _ none => some streaming.ended
    | _ => none
  | .receive found =>
    match streaming.task with
    | .segments cursor producer channel none => streaming.receive segments cursor producer found channel
    | _ => none
  | .deliver =>
    match streaming.task with
    | .segments cursor producer channel (some access) =>
      some (streaming.deliver cursor producer channel access)
    | _ => none

variable {view segments} in
theorem step_filter {streaming after : Streaming} {move} (stepped : streaming.step view segments move = some after) :
    after.stream.blockFilter = streaming.stream.blockFilter := by
  cases move with
  | nextCursor =>
    simp only [step, nextCursor] at stepped
    repeat' split at stepped
    all_goals cases stepped
    all_goals rfl
  | chooseSource =>
    simp only [step] at stepped
    split at stepped <;> cases stepped
    unfold chooseSource
    split <;> rfl
  | finalizedChanged =>
    simp only [step] at stepped
    split at stepped <;> cases stepped
    all_goals
      unfold updateFinalized
      split <;> rfl
  | sendSingle =>
    simp only [step] at stepped
    split at stepped <;> cases stepped
    unfold sendSingle
    repeat' split
    all_goals rfl
  | produce =>
    simp only [step] at stepped
    split at stepped
    · obtain ⟨-, -, rfl⟩ := Option.map_eq_some_iff.mp stepped
      rfl
    · cases stepped
  | headChanged | joined =>
    simp only [step] at stepped
    split at stepped <;> cases stepped
    all_goals rfl
  | receive =>
    simp only [step] at stepped
    split at stepped
    · rename_i cursor producer channel task
      cases channel with
      | nil =>
        simp only [receive] at stepped
        split at stepped <;> cases stepped
        rfl
      | cons =>
        simp only [receive] at stepped
        split at stepped <;> cases stepped
        all_goals rfl
    · cases stepped
  | deliver =>
    simp only [step] at stepped
    split at stepped <;> cases stepped
    simp only [deliver]
    repeat' split
    all_goals rfl

/-- A notification reaches the tasks that are waiting for it. -/
def notifyHead (streaming : Streaming) : Streaming :=
  match streaming.task with
  | .atHead _ finalizedChanged => { streaming with task := .atHead true finalizedChanged }
  | _ => streaming

def notifyFinalized (streaming : Streaming) : Streaming :=
  match streaming.task with
  | .atHead headChanged _ => { streaming with task := .atHead headChanged true }
  | .awaitFinalized _ => { streaming with task := .awaitFinalized true }
  | _ => streaming

end Streaming

def Task.Waiting : Task → Prop
  | .atHead _ _ => True
  | .awaitFinalized _ => True
  | _ => False

/-- The stream before and after a notification that it may be waiting for. -/
structure Streaming.Notified (before after : Streaming) : Prop where
  stream : after.stream = before.stream
  sent : after.sent = before.sent
  task : after.task = before.task ∨ after.task.Waiting

namespace Streaming

theorem Notified.refl (streaming : Streaming) : Notified streaming streaming := ⟨rfl, rfl, .inl rfl⟩

theorem notifyHead_notified (streaming : Streaming) : Notified streaming streaming.notifyHead := by
  unfold notifyHead
  split
  · exact ⟨rfl, rfl, .inr trivial⟩
  · exact .refl _

theorem notifyFinalized_notified (streaming : Streaming) : Notified streaming streaming.notifyFinalized := by
  unfold notifyFinalized
  split
  · exact ⟨rfl, rfl, .inr trivial⟩
  · exact ⟨rfl, rfl, .inr trivial⟩
  · exact .refl _

end Streaming

end Starkstream
