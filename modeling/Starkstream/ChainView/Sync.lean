import Starkstream.ChainView.View
import Starkstream.Ingestion.State

/-! # Keeping the chain view in sync

`ChainViewSyncService` reads the keys under `ingestion/` one after the other,
builds the view and then follows a watch.  Every request of the service is a step
of its own, so that the writes of ingestion, of compaction and of the cleanup job
can fall between any two of them.

A watch is opened without a start revision: it delivers the updates written after
its creation, in order.  When it fails the service opens another one, and the
updates that the old one still held are lost.
-/

namespace Starkstream

inductive IngestionStateUpdate where
  | startingBlock (block : Nat)
  | finalized (block : Nat)
  | pending (generation : Option Nat)
  | segmented (block : Nat)
  | grouped (block : Nat)
  | recent (pointer : RecentSegmentPointer)
  deriving DecidableEq

/-! ## Writers -/

/-- A request of one of the writers. -/
inductive StateWrite where
  | putStartingBlock (block : Nat)
  | putFinalized (block : Nat)
  | putPending (generation : Nat)
  | putSegmented (block : Nat)
  | putGrouped (block : Nat)
  /-- `put_recent_snapshot`, and `put_recent` with the pointer that it returned. -/
  | publish (segment : CanonicalChainSegment)
  | deleteLegacyIngested
  /-- The cleanup job deletes a snapshot that was superseded. -/
  | deleteSnapshot (key : Nat)

/-- `put_if_higher`: the value is stored unless the current one is at or past it. -/
def raises (stored : Option Nat) (block : Nat) : Bool := stored.all (· < block)

/-- The pointer that `put_recent_snapshot` returns. -/
def ChainStore.nextPointer (store : ChainStore) (segment : CanonicalChainSegment) : RecentSegmentPointer :=
  ⟨store.nextKey, segment.info.firstBlock.number, segment.info.lastBlock.number⟩

namespace StateWrite

def apply (world : World) : StateWrite → Option World
  | putStartingBlock block => some (world.apply (.putStartingBlock block))
  | putFinalized block => some (world.apply (.putFinalized block))
  | putPending generation => some (world.apply (.putPending generation))
  | putSegmented block =>
    if raises world.etcd.segmented block then
      some { world with etcd := { world.etcd with segmented := some block } }
    else some world
  | putGrouped block =>
    if raises world.etcd.grouped block then
      some { world with etcd := { world.etcd with grouped := some block } }
    else some world
  | publish segment =>
    some (world.applyAll [.putRecentSnapshot world.store.nextKey segment,
      .putRecent (world.store.nextPointer segment)])
  | deleteLegacyIngested => some (world.apply .deleteLegacyIngested)
  | deleteSnapshot key =>
    if world.etcd.recent.any (·.key = key) then none
    else some { world with store := { world.store with snapshots := world.store.snapshots.erase key } }

/-- What `from_kv` makes of the events of a write.  A key that is deleted although
    it does not exist has no event, and other keys are skipped. -/
def updates (world : World) : StateWrite → List IngestionStateUpdate
  | putStartingBlock block => [.startingBlock block]
  | putFinalized block => [.finalized block]
  | putPending generation => [.pending (some generation)]
  | putSegmented block => if raises world.etcd.segmented block then [.segmented block] else []
  | putGrouped block => if raises world.etcd.grouped block then [.grouped block] else []
  | publish segment =>
    .recent (world.store.nextPointer segment) ::
      if world.etcd.pending.isSome then [.pending none] else []
  | deleteLegacyIngested => []
  | deleteSnapshot _ => []

end StateWrite

/-! ## The service -/

/-- The options that ingestion stored. -/
structure StoredOptions where
  chainSegmentSize : Option Nat
  segmentSize : Option Nat
  groupSize : Option Nat

/-- What was read before the recent segment. -/
structure InitialReads where
  startingBlock : Nat
  finalized : Nat
  segmented : Option Nat
  grouped : Option Nat

/-- How far a `Recent` update was handled. -/
inductive Handling where
  /-- The next thing to do is to take an update from the watch. -/
  | idle
  /-- Get the snapshot of the update. -/
  | fetch (pointer : RecentSegmentPointer)
  /-- That snapshot is missing: read the current pointer again. -/
  | reread (pointer : RecentSegmentPointer)
  /-- Get the snapshot of the current pointer. -/
  | refetch (current : RecentSegmentPointer)

inductive SyncPhase where
  | readStartingBlock
  | readFinalized (startingBlock : Nat)
  | readSegmented (startingBlock finalized : Nat)
  | readGrouped (startingBlock finalized : Nat) (segmented : Option Nat)
  | readRecent (reads : InitialReads)
  | fetchRecent (reads : InitialReads) (pointer : RecentSegmentPointer)
  | readLegacyIngested (reads : InitialReads)
  | fetchLegacyRecent (reads : InitialReads)
  | readOptions (reads : InitialReads) (recent : CanonicalChainSegment)
  /-- The view exists, the watch does not. -/
  | connecting (view : ChainView)
  /-- `queue` holds the updates that the watch has received. -/
  | streaming (view : ChainView) (queue : List IngestionStateUpdate) (handling : Handling)
  | ended (report : Report ChainViewError)

/-- An update other than `Recent` calls one setter.  The starting block should
    never be updated: it is not looked at. -/
def ChainView.update (view : ChainView) : IngestionStateUpdate → ChainView
  | .startingBlock _ => view
  | .finalized block => view.setFinalizedBlock block
  | .pending generation => view.setPendingGeneration generation
  | .segmented block => view.setSegmentedBlock block
  | .grouped block => view.setGroupedBlock block
  | .recent _ => view

structure ChainViewSync where
  world : World
  storedOptions : StoredOptions
  /-- The chain store that the view is built with. -/
  chainStore : ChainStoreGet
  phase : SyncPhase
  /-- History: the snapshots that the view was built with or that `set_recent` was
      called with, by key. -/
  installed : List (Nat × CanonicalChainSegment)

namespace ChainViewSync

def start (world : World) (storedOptions : StoredOptions) (chainStore : ChainStoreGet) : ChainViewSync :=
  { world, storedOptions, chainStore, phase := .readStartingBlock, installed := [] }

/-- `get_recent_snapshot` as the service calls it. -/
def getRecentSnapshot (sync : ChainViewSync) (pointer : RecentSegmentPointer) :
    Outcome ChainViewError (Option CanonicalChainSegment) :=
  Outcome.changeContext {} [] (sync.world.getRecentSnapshot pointer)

def openView (sync : ChainViewSync) (reads : InitialReads) (recent : CanonicalChainSegment) : SyncPhase :=
  match sync.storedOptions.chainSegmentSize with
  | none => .ended ⟨{}, ["chain segment size option not found"]⟩
  | some chainSegmentSize =>
    match sync.storedOptions.segmentSize with
    | none => .ended ⟨{}, ["segment size option not found"]⟩
    | some segmentSize =>
      match sync.storedOptions.groupSize with
      | none => .ended ⟨{}, ["group size option not found"]⟩
      | some groupSize =>
        .connecting (.new reads.finalized reads.segmented reads.grouped segmentSize groupSize
          ⟨sync.chainStore, reads.startingBlock, chainSegmentSize, recent⟩)

/-- The first answer that is not `None`, or the same request again. -/
def waitFor {α : Type} (answer : Option α) (retry : SyncPhase) (next : α → SyncPhase) : SyncPhase :=
  answer.elim retry next

/-- `set_recent`, and back to the watch. -/
def setRecent (sync : ChainViewSync) (view : ChainView) (queue : List IngestionStateUpdate) (key : Nat)
    (recent : CanonicalChainSegment) : ChainViewSync :=
  { sync with
    phase := .streaming (view.setRecent recent) queue .idle
    installed := sync.installed ++ [(key, recent)] }

/-- The next request of the service, or the next update of the watch.  `none`
    when it waits for the watch. -/
def advance (sync : ChainViewSync) : Option ChainViewSync :=
  let etcd := sync.world.etcd
  match sync.phase with
  | .readStartingBlock =>
    some { sync with phase := waitFor etcd.startingBlock .readStartingBlock .readFinalized }
  | .readFinalized startingBlock =>
    some { sync with
      phase := waitFor etcd.finalized (.readFinalized startingBlock) (.readSegmented startingBlock) }
  | .readSegmented startingBlock finalized =>
    some { sync with phase := .readGrouped startingBlock finalized etcd.segmented }
  | .readGrouped startingBlock finalized segmented =>
    some { sync with phase := .readRecent ⟨startingBlock, finalized, segmented, etcd.grouped⟩ }
  | .readRecent reads =>
    some { sync with phase := waitFor etcd.recent (.readLegacyIngested reads) (.fetchRecent reads) }
  | .fetchRecent reads pointer =>
    match sync.getRecentSnapshot pointer with
    | .ok (some recent) =>
      some { sync with
        phase := .readOptions reads recent
        installed := sync.installed ++ [(pointer.key, recent)] }
    -- the pointer is stale: retry to pick up the one that is published next
    | .ok none => some { sync with phase := .readRecent reads }
    | .error (.error report) => some { sync with phase := .ended report }
    | .error .panic => none
  | .readLegacyIngested reads =>
    some { sync with phase := waitFor etcd.legacyIngested (.readRecent reads) fun _ => .fetchLegacyRecent reads }
  | .fetchLegacyRecent reads =>
    some { sync with phase := waitFor sync.world.store.legacyRecent (.readRecent reads) (.readOptions reads) }
  | .readOptions reads recent => some { sync with phase := sync.openView reads recent }
  | .connecting view => some { sync with phase := .streaming view [] .idle }
  | .streaming _ [] .idle => none
  | .streaming view (.recent pointer :: queue) .idle =>
    some { sync with phase := .streaming view queue (.fetch pointer) }
  | .streaming view (update :: queue) .idle =>
    some { sync with phase := .streaming (view.update update) queue .idle }
  | .streaming view queue (.fetch pointer) =>
    match sync.getRecentSnapshot pointer with
    | .ok (some recent) => some (sync.setRecent view queue pointer.key recent)
    | .ok none => some { sync with phase := .streaming view queue (.reread pointer) }
    | .error (.error _) => some { sync with phase := .connecting view }
    | .error .panic => none
  | .streaming view queue (.reread pointer) =>
    match etcd.recent with
    | some current =>
      if current.key ≠ pointer.key then
        some { sync with phase := .streaming view queue (.refetch current) }
      else some { sync with phase := .streaming view queue .idle }
    | none => some { sync with phase := .streaming view queue .idle }
  | .streaming view queue (.refetch current) =>
    match sync.getRecentSnapshot current with
    | .ok (some recent) => some (sync.setRecent view queue current.key recent)
    -- the snapshot is unavailable: skip the update
    | .ok none => some { sync with phase := .streaming view queue .idle }
    | .error (.error _) => some { sync with phase := .connecting view }
    | .error .panic => none
  | .ended _ => none

/-- An error of etcd or of the object store, or the end of the watch.  Before the
    view exists it ends the service. -/
def fail (sync : ChainViewSync) (report : Report ChainViewError) : ChainViewSync :=
  match sync.phase with
  | .connecting _ => sync
  | .streaming view _ _ => { sync with phase := .connecting view }
  | .ended _ => sync
  | _ => { sync with phase := .ended report }

end ChainViewSync

def SyncPhase.receive (phase : SyncPhase) (received : List IngestionStateUpdate) : SyncPhase :=
  match phase with
  | .streaming view queue handling => .streaming view (queue ++ received) handling
  | other => other

def SyncPhase.view : SyncPhase → Option ChainView
  | .connecting view => some view
  | .streaming view _ _ => some view
  | _ => none

def SyncPhase.Reading : SyncPhase → Prop
  | .readOptions _ _ | .connecting _ | .streaming _ _ _ | .ended _ => False
  | _ => True

inductive SyncInput where
  | write (write : StateWrite)
  | advance
  | fail (report : Report ChainViewError)

namespace ChainViewSync

def step (sync : ChainViewSync) : SyncInput → Option ChainViewSync
  | .write write =>
    (write.apply sync.world).map fun world =>
      { sync with world, phase := sync.phase.receive (write.updates sync.world) }
  | .advance => sync.advance
  | .fail report => some (sync.fail report)

/-! ## What one request can do -/

theorem getRecentSnapshot_ok {sync : ChainViewSync} {pointer answer}
    (answered : sync.getRecentSnapshot pointer = .ok answer) : sync.world.store.snapshots[pointer.key]? = answer := by
  have stored := Outcome.changeContext_eq_ok.mp answered
  simp only [World.getRecentSnapshot] at stored
  split at stored
  · cases stored
  · cases found : sync.world.store.snapshots[pointer.key]? with
    | none =>
      simp only [found] at stored
      exact Except.ok.inj stored
    | some =>
      simp only [found] at stored
      split at stored
      · cases stored
      · exact Except.ok.inj stored

/-- The effect of `advance`, case by case. -/
inductive Advances (sync : ChainViewSync) : ChainViewSync → Prop where
  | reading (phase : SyncPhase) (before : sync.phase.Reading) (after : phase.Reading)
      (pointed : ∀ reads pointer, phase = .fetchRecent reads pointer → sync.world.etcd.recent = some pointer) :
      Advances sync { sync with phase }
  | loaded (reads : InitialReads) (pointer : RecentSegmentPointer) (recent : CanonicalChainSegment)
      (before : sync.phase = .fetchRecent reads pointer)
      (found : sync.world.store.snapshots[pointer.key]? = some recent) :
      Advances sync { sync with
        phase := .readOptions reads recent
        installed := sync.installed ++ [(pointer.key, recent)] }
  | loadedLegacy (reads : InitialReads) (recent : CanonicalChainSegment) (before : sync.phase.Reading) :
      Advances sync { sync with phase := .readOptions reads recent }
  | opened (reads : InitialReads) (recent : CanonicalChainSegment) (view : ChainView)
      (before : sync.phase = .readOptions reads recent) (shows : view.canonical.recent = recent) :
      Advances sync { sync with phase := .connecting view }
  | ended (report : Report ChainViewError) : Advances sync { sync with phase := .ended report }
  | watched (view : ChainView) (before : sync.phase = .connecting view) :
      Advances sync { sync with phase := .streaming view [] .idle }
  | updated (view : ChainView) (update : IngestionStateUpdate) (queue : List IngestionStateUpdate)
      (before : sync.phase = .streaming view (update :: queue) .idle)
      (other : ∀ pointer, update ≠ .recent pointer) :
      Advances sync { sync with phase := .streaming (view.update update) queue .idle }
  | took (view : ChainView) (pointer : RecentSegmentPointer) (queue : List IngestionStateUpdate)
      (before : sync.phase = .streaming view (.recent pointer :: queue) .idle) :
      Advances sync { sync with phase := .streaming view queue (.fetch pointer) }
  | fetched (view : ChainView) (queue : List IngestionStateUpdate) (pointer : RecentSegmentPointer)
      (recent : CanonicalChainSegment) (before : sync.phase = .streaming view queue (.fetch pointer))
      (found : sync.world.store.snapshots[pointer.key]? = some recent) :
      Advances sync (sync.setRecent view queue pointer.key recent)
  | missed (view : ChainView) (queue : List IngestionStateUpdate) (pointer : RecentSegmentPointer)
      (before : sync.phase = .streaming view queue (.fetch pointer))
      (missing : sync.world.store.snapshots[pointer.key]? = none) :
      Advances sync { sync with phase := .streaming view queue (.reread pointer) }
  | reread (view : ChainView) (queue : List IngestionStateUpdate) (pointer current : RecentSegmentPointer)
      (before : sync.phase = .streaming view queue (.reread pointer))
      (read : sync.world.etcd.recent = some current) :
      Advances sync { sync with phase := .streaming view queue (.refetch current) }
  | refetched (view : ChainView) (queue : List IngestionStateUpdate) (current : RecentSegmentPointer)
      (recent : CanonicalChainSegment) (before : sync.phase = .streaming view queue (.refetch current))
      (found : sync.world.store.snapshots[current.key]? = some recent) :
      Advances sync (sync.setRecent view queue current.key recent)
  | skipped (view : ChainView) (queue : List IngestionStateUpdate) (pointer : RecentSegmentPointer)
      (before : sync.phase = .streaming view queue (.reread pointer) ∨
        sync.phase = .streaming view queue (.refetch pointer)) :
      Advances sync { sync with phase := .streaming view queue .idle }
  | lost (view : ChainView) (queue : List IngestionStateUpdate) (handling : Handling)
      (before : sync.phase = .streaming view queue handling) :
      Advances sync { sync with phase := .connecting view }

theorem Advances.waited {sync} {α : Type} {answer : Option α} {retry onward}
    (again : Advances sync { sync with phase := retry })
    (found : ∀ value, answer = some value → Advances sync { sync with phase := onward value }) :
    Advances sync { sync with phase := waitFor answer retry onward } := by
  cases answer with
  | none => exact again
  | some value => exact found value rfl

theorem advance_cases {sync next : ChainViewSync} (advanced : sync.advance = some next) :
    Advances sync next := by
  have plain : ∀ phase : SyncPhase, sync.phase.Reading → phase.Reading →
      (∀ reads pointer, phase ≠ .fetchRecent reads pointer) → Advances sync { sync with phase } :=
    fun phase before after other =>
      .reading phase before after fun reads pointer same => absurd same (other reads pointer)
  simp only [advance] at advanced
  split at advanced
  · rename_i before
    cases advanced
    exact .waited (plain _ (before ▸ trivial) trivial nofun) fun _ _ => plain _ (before ▸ trivial) trivial nofun
  · rename_i before
    cases advanced
    exact .waited (plain _ (before ▸ trivial) trivial nofun) fun _ _ => plain _ (before ▸ trivial) trivial nofun
  · rename_i before
    cases advanced
    exact plain _ (before ▸ trivial) trivial nofun
  · rename_i before
    cases advanced
    exact plain _ (before ▸ trivial) trivial nofun
  · rename_i before
    cases advanced
    refine .waited (plain _ (before ▸ trivial) trivial nofun) fun pointer current =>
      .reading _ (before ▸ trivial) trivial ?_
    rintro _ _ ⟨⟩
    exact current
  · rename_i reads pointer before
    split at advanced
    · rename_i recent found
      cases advanced
      exact .loaded reads pointer recent before (getRecentSnapshot_ok found)
    · cases advanced
      exact plain _ (before ▸ trivial) trivial nofun
    · cases advanced
      exact .ended _
    · cases advanced
  · rename_i before
    cases advanced
    exact .waited (plain _ (before ▸ trivial) trivial nofun) fun _ _ => plain _ (before ▸ trivial) trivial nofun
  · rename_i before
    cases advanced
    exact .waited (plain _ (before ▸ trivial) trivial nofun) fun recent _ =>
      .loadedLegacy _ recent (before ▸ trivial)
  · rename_i reads recent before
    cases advanced
    simp only [openView]
    split
    · exact .ended _
    · split
      · exact .ended _
      · split
        · exact .ended _
        · exact .opened reads recent _ before rfl
  · rename_i view before
    cases advanced
    exact .watched view before
  · cases advanced
  · rename_i view pointer queue before
    cases advanced
    exact .took view pointer queue before
  · rename_i view update queue other before
    cases advanced
    exact .updated view update queue before other
  · rename_i view queue pointer before
    split at advanced
    · rename_i recent found
      cases advanced
      exact .fetched view queue pointer recent before (getRecentSnapshot_ok found)
    · rename_i missing
      cases advanced
      exact .missed view queue pointer before (getRecentSnapshot_ok missing)
    · cases advanced
      exact .lost view queue _ before
    · cases advanced
  · rename_i view queue pointer before
    split at advanced
    · rename_i current read
      split at advanced
      · cases advanced
        exact .reread view queue pointer current before read
      · cases advanced
        exact .skipped view queue pointer (.inl before)
    · cases advanced
      exact .skipped view queue pointer (.inl before)
  · rename_i view queue current before
    split at advanced
    · rename_i recent found
      cases advanced
      exact .refetched view queue current recent before (getRecentSnapshot_ok found)
    · cases advanced
      exact .skipped view queue current (.inr before)
    · cases advanced
      exact .lost view queue _ before
    · cases advanced
  · cases advanced

end ChainViewSync

end Starkstream
