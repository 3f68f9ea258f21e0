import Starkstream.ChainView.Sync
import Starkstream.Lib.Watch

/-! # When the chain view is in sync with etcd

Whenever the service waits and has handled every update of its watch, the view
should hold what etcd holds.  A watch only delivers what is written after its
creation, so this stands and falls with the moments at which a watch is created:
a value written after the service read it, or while there is no watch, reaches
the view only if it is written once more.
-/

namespace Starkstream

open Watch

namespace IngestionStateUpdate

def finalizedOf : IngestionStateUpdate → Option Nat
  | .finalized block => some block
  | _ => none

def segmentedOf : IngestionStateUpdate → Option Nat
  | .segmented block => some block
  | _ => none

def groupedOf : IngestionStateUpdate → Option Nat
  | .grouped block => some block
  | _ => none

def pendingOf : IngestionStateUpdate → Option (Option Nat)
  | .pending generation => some generation
  | _ => none

def recentOf : IngestionStateUpdate → Option RecentSegmentPointer
  | .recent pointer => some pointer
  | _ => none

end IngestionStateUpdate

open IngestionStateUpdate

/-- The view holds the snapshot that the pointer in etcd names. -/
def ChainView.ShowsRecent (view : ChainView) (world : World) : Prop :=
  ∀ pointer, world.etcd.recent = some pointer →
    world.store.snapshots[pointer.key]? = some view.canonical.recent

/-- The view holds what etcd holds. -/
structure ChainView.Mirrors (view : ChainView) (world : World) : Prop where
  finalized : world.etcd.finalized = some view.finalized
  segmented : world.etcd.segmented = view.segmented
  grouped : world.etcd.grouped = view.grouped
  pending : world.etcd.pending = view.pendingGeneration
  recent : view.ShowsRecent world

namespace ChainViewSync

/-- If the service has handled every update of its watch, and nothing was written
    since, the view is up to date. -/
def InSync (sync : ChainViewSync) : Prop :=
  ∀ view, sync.phase = .streaming view [] .idle → view.Mirrors sync.world

/-- A watch is only created while the view is up to date. -/
def WatchesInTime (sync : ChainViewSync) : SyncInput → Prop
  | .advance => ∀ view, sync.phase = .connecting view → view.Mirrors sync.world
  | _ => True

end ChainViewSync

/-! ## What a write announces -/

/-- The snapshot of the current pointer is stored. -/
def World.Readable (world : World) : Prop :=
  ∀ pointer, world.etcd.recent = some pointer → ∃ segment, world.store.snapshots[pointer.key]? = some segment

/-- The updates of a write carry everything that it changed. -/
structure Announced (before : World) (updates : List IngestionStateUpdate) (after : World) : Prop where
  finalized : after.etcd.finalized = (lastOf finalizedOf updates).or before.etcd.finalized
  segmented : after.etcd.segmented = (lastOf segmentedOf updates).or before.etcd.segmented
  grouped : after.etcd.grouped = (lastOf groupedOf updates).or before.etcd.grouped
  pending : some after.etcd.pending = (lastOf pendingOf updates).or (some before.etcd.pending)
  recent : after.etcd.recent = (lastOf recentOf updates).or before.etcd.recent
  snapshot : lastOf recentOf updates = none → ∀ pointer, before.etcd.recent = some pointer →
    after.store.snapshots[pointer.key]? = before.store.snapshots[pointer.key]?
  readable : before.Readable → after.Readable

namespace StateWrite

/-- Only the cleanup job and a publication touch the snapshots. -/
theorem announced {write : StateWrite} {before after} (applied : write.apply before = some after) :
    Announced before (write.updates before) after := by
  cases write with
  | putStartingBlock | putFinalized | putPending | deleteLegacyIngested =>
    cases applied
    exact ⟨rfl, rfl, rfl, rfl, rfl, fun _ _ _ => rfl, id⟩
  | putSegmented | putGrouped =>
    simp only [apply] at applied
    simp only [updates]
    split at applied
    · rename_i higher
      cases applied
      rw [if_pos higher]
      exact ⟨rfl, rfl, rfl, rfl, rfl, fun _ _ _ => rfl, id⟩
    · rename_i lower
      cases applied
      rw [if_neg lower]
      exact ⟨rfl, rfl, rfl, rfl, rfl, fun _ _ _ => rfl, id⟩
  | publish segment =>
    cases applied
    have readable : World.Readable (before.applyAll [.putRecentSnapshot before.store.nextKey segment,
        .putRecent (before.store.nextPointer segment)]) := by
      intro pointer current
      cases current
      exact ⟨segment, Std.ExtTreeMap.getElem?_insert_self⟩
    cases pending : before.etcd.pending with
    | none =>
      simp only [updates, pending]
      refine ⟨rfl, rfl, rfl, ?_, rfl, fun quiet => ?_, fun _ => readable⟩
      · rw [pending]
        rfl
      · cases quiet
    | some =>
      simp only [updates, pending]
      refine ⟨rfl, rfl, rfl, rfl, rfl, fun quiet => ?_, fun _ => readable⟩
      cases quiet
  | deleteSnapshot key =>
    simp only [apply] at applied
    split at applied
    · cases applied
    · rename_i superseded
      cases applied
      have kept : ∀ pointer, before.etcd.recent = some pointer →
          (before.store.snapshots.erase key)[pointer.key]? = before.store.snapshots[pointer.key]? := by
        intro pointer current
        have other : ¬ key = pointer.key := by
          intro same
          simp [current, same] at superseded
        simp [Std.ExtTreeMap.getElem?_erase, other]
      refine ⟨rfl, rfl, rfl, rfl, rfl, fun _ => kept, fun readable pointer current => ?_⟩
      obtain ⟨segment, found⟩ := readable pointer current
      exact ⟨segment, (kept pointer current).trans found⟩

end StateWrite

/-! ## The view and the queue together carry what is stored -/

/-- The recent snapshot, by how far an update was handled: a snapshot that is
    missing was superseded, so a later update about it is in the queue. -/
def Handling.FollowsRecent (world : World) (view : ChainView) (queue : List IngestionStateUpdate) :
    Handling → Prop
  | .idle => Tracks recentOf world.etcd.recent queue world.etcd.recent ∧
      (lastOf recentOf queue = none → view.ShowsRecent world)
  | .fetch pointer => Tracks recentOf (some pointer) queue world.etcd.recent
  | .reread _ => Tracks recentOf none queue world.etcd.recent
  | .refetch _ => Tracks recentOf none queue world.etcd.recent

structure Follows (world : World) (view : ChainView) (queue : List IngestionStateUpdate) (handling : Handling) :
    Prop where
  finalized : Tracks finalizedOf (some view.finalized) queue world.etcd.finalized
  segmented : Tracks segmentedOf view.segmented queue world.etcd.segmented
  grouped : Tracks groupedOf view.grouped queue world.etcd.grouped
  pending : Tracks pendingOf (some view.pendingGeneration) queue (some world.etcd.pending)
  recent : handling.FollowsRecent world view queue
  readable : world.Readable

namespace Follows

variable {world after : World} {view : ChainView} {queue updates : List IngestionStateUpdate}
  {handling : Handling}

theorem opened (mirrors : view.Mirrors world) : Follows world view [] .idle :=
  { finalized := .opened mirrors.finalized.symm
    segmented := .opened mirrors.segmented.symm
    grouped := .opened mirrors.grouped.symm
    pending := .opened (congrArg some mirrors.pending.symm)
    recent := ⟨.opened rfl, fun _ => mirrors.recent⟩
    readable := fun pointer current => ⟨_, mirrors.recent pointer current⟩ }

theorem mirrors (follows : Follows world view [] .idle) : view.Mirrors world :=
  { finalized := follows.finalized.settled.symm
    segmented := follows.segmented.settled.symm
    grouped := follows.grouped.settled.symm
    pending := (Option.some.inj follows.pending.settled).symm
    recent := follows.recent.2 rfl }

theorem written (follows : Follows world view queue handling) (announced : Announced world updates after) :
    Follows after view (queue ++ updates) handling := by
  have recent : handling.FollowsRecent after view (queue ++ updates) := by
    have followed := follows.recent
    cases handling with
    | idle =>
      obtain ⟨tracks, shows⟩ := followed
      refine ⟨?_, fun quiet => ?_⟩
      · have carried : Tracks recentOf world.etcd.recent (queue ++ updates) after.etcd.recent :=
          announced.recent ▸ tracks.written
        exact carried.current
      · rw [lastOf_append, Option.or_eq_none_iff] at quiet
        obtain ⟨quietUpdates, quietQueue⟩ := quiet
        have same : after.etcd.recent = world.etcd.recent := by
          rw [announced.recent, quietUpdates, Option.none_or]
        intro pointer current
        rw [same] at current
        exact (announced.snapshot quietUpdates pointer current).trans (shows quietQueue pointer current)
    | fetch | reread | refetch =>
      simp only [Handling.FollowsRecent, announced.recent]
      exact Tracks.written followed
  exact
    { finalized := announced.finalized ▸ follows.finalized.written
      segmented := announced.segmented ▸ follows.segmented.written
      grouped := announced.grouped ▸ follows.grouped.written
      pending := announced.pending ▸ follows.pending.written
      recent
      readable := announced.readable follows.readable }

theorem updated {update} (follows : Follows world view (update :: queue) .idle)
    (other : ∀ pointer, update ≠ .recent pointer) : Follows world (view.update update) queue .idle := by
  obtain ⟨finalized, segmented, grouped, pending, ⟨tracks, shows⟩, readable⟩ := follows
  have finalized := finalized.taken
  have segmented := segmented.taken
  have grouped := grouped.taken
  have pending := pending.taken
  have tracks := tracks.taken
  rw [lastOf_cons] at shows
  cases update with
  | recent pointer => exact absurd rfl (other pointer)
  | startingBlock | finalized | segmented | grouped | pending =>
    exact ⟨finalized, segmented, grouped, pending, ⟨tracks, fun quiet => shows (by rw [quiet]; rfl)⟩, readable⟩

variable {pointer : RecentSegmentPointer}

theorem took (follows : Follows world view (.recent pointer :: queue) .idle) :
    Follows world view queue (.fetch pointer) :=
  { follows with
    finalized := follows.finalized.taken
    segmented := follows.segmented.taken
    grouped := follows.grouped.taken
    pending := follows.pending.taken
    recent := follows.recent.1.taken }

/-- The snapshot of the update is there. -/
theorem fetched {recent} (follows : Follows world view queue (.fetch pointer))
    (found : world.store.snapshots[pointer.key]? = some recent) :
    Follows world (view.setRecent recent) queue .idle := by
  have tracks : Tracks recentOf (some pointer) queue world.etcd.recent := follows.recent
  refine { follows with recent := ⟨tracks.current, fun quiet current isCurrent => ?_⟩ }
  cases (tracks.of_lastOf_none quiet).trans isCurrent
  exact found

/-- It is missing: then it is not the current one, and a later update follows. -/
theorem missed (follows : Follows world view queue (.fetch pointer))
    (missing : world.store.snapshots[pointer.key]? = none) : Follows world view queue (.reread pointer) := by
  have tracks : Tracks recentOf (some pointer) queue world.etcd.recent := follows.recent
  refine { follows with recent := ?_ }
  cases last : lastOf recentOf queue with
  | none =>
    obtain ⟨_, found⟩ := follows.readable pointer (tracks.of_lastOf_none last).symm
    rw [missing] at found
    cases found
  | some => exact tracks.forget last _

variable (follows : Follows world view queue handling) (tracks : Tracks recentOf none queue world.etcd.recent)
include follows tracks

/-- With a later update in the queue the view may show any snapshot. -/
theorem skipped : Follows world view queue .idle := by
  refine { follows with recent := ⟨tracks.current, fun quiet pointer current => ?_⟩ }
  cases (tracks.of_lastOf_none quiet).trans current

theorem refetched (recent : CanonicalChainSegment) : Follows world (view.setRecent recent) queue .idle := by
  refine { follows with recent := ⟨tracks.current, fun quiet pointer current => ?_⟩ }
  cases (tracks.of_lastOf_none quiet).trans current

end Follows

namespace ChainViewSync

/-- While there is a watch, its queue makes up for what the view lacks. -/
def Following (sync : ChainViewSync) : Prop :=
  ∀ view queue handling, sync.phase = .streaming view queue handling → Follows sync.world view queue handling

variable {sync : ChainViewSync}

theorem Following.of_unwatched (unwatched : ∀ view queue handling, sync.phase ≠ .streaming view queue handling) :
    sync.Following :=
  fun view queue handling streaming => absurd streaming (unwatched view queue handling)

theorem fail_unwatched (sync : ChainViewSync) (report : Report ChainViewError) :
    ∀ view queue handling, (sync.fail report).phase ≠ .streaming view queue handling := by
  intro view queue handling streaming
  simp only [fail] at streaming
  split at streaming <;> simp_all

theorem Following.advance {next} (following : sync.Following) (inTime : sync.WatchesInTime .advance)
    (advanced : Advances sync next) : next.Following := by
  cases advanced with
  | reading phase before after =>
    refine .of_unwatched fun view queue handling streaming => ?_
    rw [show phase = .streaming view queue handling from streaming] at after
    exact after
  | loaded reads pointer recent before found | loadedLegacy reads recent before
  | opened | ended | lost => exact .of_unwatched nofun
  | watched view before =>
    rintro _ _ _ ⟨⟩
    exact .opened (inTime view before)
  | updated view update queue before other =>
    rintro _ _ _ ⟨⟩
    exact (following _ _ _ before).updated other
  | took view pointer queue before =>
    rintro _ _ _ ⟨⟩
    exact (following _ _ _ before).took
  | fetched view queue pointer recent before found =>
    rintro _ _ _ ⟨⟩
    exact (following _ _ _ before).fetched found
  | missed view queue pointer before missing =>
    rintro _ _ _ ⟨⟩
    exact (following _ _ _ before).missed missing
  | reread view queue pointer current before =>
    rintro _ _ _ ⟨⟩
    exact { following _ _ _ before with }
  | refetched view queue current recent before =>
    rintro _ _ _ ⟨⟩
    have follows := following _ _ _ before
    exact follows.refetched follows.recent recent
  | skipped view queue pointer before =>
    rintro _ _ _ ⟨⟩
    cases before with
    | inl before | inr before =>
      have follows := following _ _ _ before
      exact follows.skipped follows.recent

theorem Following.step {next input} (following : sync.Following) (inTime : sync.WatchesInTime input)
    (stepped : sync.step input = some next) : next.Following := by
  cases input with
  | write =>
    obtain ⟨_, applied, rfl⟩ := Option.map_eq_some_iff.mp stepped
    intro view queue handling streaming
    cases before : sync.phase with
    | streaming =>
      simp only [before, SyncPhase.receive, SyncPhase.streaming.injEq] at streaming
      obtain ⟨rfl, rfl, rfl⟩ := streaming
      exact (following _ _ _ before).written (StateWrite.announced applied)
    | _ => simp only [before, SyncPhase.receive, reduceCtorEq] at streaming
  | advance => exact following.advance inTime (advance_cases stepped)
  | fail report =>
    cases stepped
    exact .of_unwatched (sync.fail_unwatched report)

theorem Following.inSync (following : sync.Following) : sync.InSync :=
  fun _ waiting => (following _ _ _ waiting).mirrors

/-- The view is up to date in every state of a run in which the service has
    handled every update of its watch, just when every watch of the run was
    created while the view was up to date. -/
theorem inSync_iff_watchesInTime (world : World) (storedOptions : StoredOptions) (chainStore : ChainStoreGet)
    (inputs : List SyncInput) :
    Runs.Always step InSync (start world storedOptions chainStore) inputs ↔
      Runs.Meets step WatchesInTime (start world storedOptions chainStore) inputs := by
  refine Runs.always_iff_meets (fun _ _ _ following inTime stepped => Following.step following inTime stepped)
    (fun _ following => following.inSync) (fun sync input _ good => ?_) (.of_unwatched nofun)
  cases input with
  | write write => trivial
  | fail report => trivial
  | advance =>
    intro view before
    have opened : sync.step .advance = some { sync with phase := .streaming view [] .idle } := by
      simp only [step, ChainViewSync.advance, before]
    exact good _ opened view rfl

end ChainViewSync

namespace LateWrite

def stored : StoredOptions := ⟨some 100, some 2, some 2⟩

def segment : CanonicalChainSegment := (Building.single ⟨0, ⟨[1]⟩, ⟨[]⟩⟩).snapshot

/-- The finalized block moves after the service read it and before it watches. -/
def inputs : List SyncInput :=
  [.write (.putStartingBlock 0), .write (.putFinalized 0), .write (.publish segment),
    .advance, .advance, .write (.putFinalized 1), .advance, .advance, .advance, .advance, .advance, .advance]

end LateWrite

open LateWrite

theorem ChainViewSync.inSync_fails_late_write :
    ∃ sync view, Runs.run ChainViewSync.step (.start .fresh stored fun _ => .ok none) LateWrite.inputs = some sync ∧
      sync.phase = .streaming view [] .idle ∧ view.finalized = 0 ∧ sync.world.etcd.finalized = some 1 ∧
      ¬ sync.InSync := by
  obtain ⟨sync, view, reached, waiting, shown, written⟩ :
      ∃ sync view, Runs.run ChainViewSync.step (.start .fresh stored fun _ => .ok none) LateWrite.inputs = some sync ∧
        sync.phase = .streaming view [] .idle ∧ view.finalized = 0 ∧ sync.world.etcd.finalized = some 1 :=
    ⟨_, _, rfl, rfl, rfl, rfl⟩
  refine ⟨sync, view, reached, waiting, shown, written, fun inSync => ?_⟩
  have same := (inSync view waiting).finalized
  rw [written, shown] at same
  cases same

end Starkstream
